import Mathlib.Data.List.Pairwise
import ShardQuery.Plan.Compile
import ShardQuery.Proofs.Cursor.Reading
import ShardQuery.Proofs.Outcome
import ShardQuery.Proofs.Text.Case
/-!
What compilation checks. Main statements: how each plan comes of its statement, and that it only reads, or is one
change whose columns fit the table that it is about.
-/

set_option autoImplicit false

namespace ShardQuery

-- The record id comes first, and no two fields have one name up to the case of ASCII letters.
structure Table.Wellformed (table : Table) : Prop where
  headed : ∃ key rest, table.fields = key :: rest ∧ key.name = idColumn ∧ key.type = .id
  distinct : table.fields.Pairwise fun a b => Text.same a.name b.name = false

theorem Table.same_field {table : Table} (wellformed : table.Wellformed) (a b : Field) (among : a ∈ table.fields)
    (among' : b ∈ table.fields) (same : Text.same a.name b.name = true) : a = b := by
  by_contra different
  have apart : Std.Symm fun a b : Field => Text.same a.name b.name = false := by
    refine ⟨fun a b distinct => Bool.eq_false_iff.mpr fun alike => ?_⟩
    rw [Text.same_symm _ _ alike] at distinct
    cases distinct
  rw [List.Pairwise.forall wellformed.distinct among among' different] at same
  cases same

theorem Table.field_named {table : Table} {name : String} {field : Field} (found : table.field? name = some field) :
    field ∈ table.fields ∧ Text.same field.name name = true := by
  rw [Table.field?] at found
  have same := List.find?_some found
  exact ⟨List.mem_of_find?_eq_some found, same⟩

-- Everything is filed under its own id, and every table is well formed.
structure Catalog.Filed (catalog : Catalog) : Prop where
  databases : ∀ id database, catalog.databases.get? id = some database → database.id = id
  tables : ∀ id table, catalog.tables.get? id = some table → table.id = id
  wellformed : ∀ id table, catalog.tables.get? id = some table → table.Wellformed

theorem Catalog.table_named_found {catalog : Catalog} {database name : String} {table : Table}
    (found : catalog.tableNamed database name = .ok table) :
    ∃ owner, catalog.databaseNamed database = .ok owner ∧
      catalog.tables.get? (.ofName owner.id name) = some table := by
  obtain ⟨owner, named, found⟩ := ok_of_bind found
  refine ⟨owner, named, ?_⟩
  split at found
  · rename_i held
    cases found
    exact held
  · cases found

theorem Catalog.ask_ok {α : Type} {lookup : Catalog.Lookup α} {a : α} (asked : Catalog.ask lookup = .ok a) :
    lookup = .ok a := by
  cases lookup with
  | ok b => exact congrArg Except.ok (Except.ok.inj asked)
  | error cause => cases asked

namespace InsertPlan

-- Each column is a field of the table, with its type, and none is given twice.
structure Fills (insertion : InsertPlan) (table : Table) : Prop where
  into : insertion.table = table.id
  columns : List.Forall₂ (fun column type =>
    ∃ field ∈ table.fields, Text.same field.name column = true ∧ field.type = type) insertion.columns insertion.types
  distinct : insertion.columns.Pairwise fun a b => Text.same a b = false

end InsertPlan

namespace Plan

-- Whether a plan is a change.
def mutates : Plan → Bool
  | .createDatabase .. | .dropDatabase .. | .alterDatabase .. | .createTable .. | .dropTable .. | .alterTable ..
  | .insert _ => true
  | _ => false

-- What is known of a plan that was compiled against a catalog.
def Fits (catalog : Catalog) : Plan → Prop
  | .createTable _ _ _ fields _ => validateColumns fields = .ok ()
  | .alterTable _ _ (.dropColumn column) => Text.same column idColumn = false
  | .insert insertion => ∃ id table, catalog.tables.get? id = some table ∧ insertion.Fills table
  | _ => True

end Plan

theorem Select.compile_reads (scope : Scope) (gate : DenyList) (query : Select) (plan : Plan)
    (compiled : query.compile scope gate = .ok plan) : plan.reads = true := by
  have here (source : Plan) (plan : Plan) (reads : source.reads = true)
      (compiled : query.compileLocal source = .ok plan) : plan.reads = true := by
    obtain ⟨filtered, found, compiled⟩ := ok_of_bind compiled
    obtain ⟨exprs, -, compiled⟩ := ok_of_bind compiled
    obtain ⟨output, -, compiled⟩ := ok_of_bind compiled
    have reading : filtered.reads = true := by
      split at found
      · obtain ⟨predicate, -, rfl⟩ := ok_of_map found
        exact reads
      · cases found
        exact reads
    rw [← Except.ok.inj compiled]
    split
    · exact reading
    · exact reading
  have everywhere (plan : Plan) (compiled : query.compileRows scope gate = .ok plan) : plan.reads = true := by
    rw [Select.compileRows] at compiled
    split at compiled
    · obtain ⟨_, -, compiled⟩ := ok_of_bind compiled
      obtain ⟨table, -, compiled⟩ := ok_of_bind compiled
      obtain ⟨onNodes, found, compiled⟩ := ok_of_bind compiled
      have reading := here _ onNodes rfl found
      rw [← Except.ok.inj compiled]
      split
      · exact reading
      · exact reading
    · exact here _ plan rfl compiled
  obtain ⟨rows, found, compiled⟩ := ok_of_bind compiled
  obtain ⟨keys, -, compiled⟩ := ok_of_bind compiled
  have reading : (if keys.isEmpty then rows else .orderBy keys rows).reads = true := by
    split
    · exact everywhere rows found
    · exact everywhere rows found
  rw [← Except.ok.inj compiled]
  split
  · exact reading
  · exact reading

namespace Insertion

-- Each target is the field that a column names.
theorem targets_from_found (table : Table) (names : List String) (seen : List String) (targets : List Field)
    (found : targetsFrom table seen names = .ok targets) :
    ∀ field ∈ targets, ∃ name ∈ names, table.field? name = some field := by
  induction names generalizing seen targets with
  | nil =>
      cases found
      exact nofun
  | cons name rest ih =>
      rw [targetsFrom] at found
      split at found
      · cases found
      · rename_i field held
        dsimp only at found
        split at found
        · cases found
        · obtain ⟨others, later, found⟩ := ok_of_bind found
          cases found
          intro other member
          rcases List.mem_cons.mp member with rfl | among
          · exact ⟨name, List.mem_cons_self, held⟩
          · obtain ⟨column, listed, held⟩ := ih _ others later other among
            exact ⟨column, List.mem_cons_of_mem _ listed, held⟩

theorem targets_from_distinct (table : Table) (names : List String) (seen : List String) (targets : List Field)
    (found : targetsFrom table seen names = .ok targets) :
    (∀ field ∈ targets, Text.lower field.name ∉ seen) ∧
      targets.Pairwise fun a b => Text.same a.name b.name = false := by
  induction names generalizing seen targets with
  | nil =>
      cases found
      exact ⟨nofun, .nil⟩
  | cons name rest ih =>
      rw [targetsFrom] at found
      split at found
      · cases found
      · rename_i field held
        by_cases known : seen.contains (Text.lower field.name) = true
        · simp only [if_pos known] at found
          cases found
        · simp only [if_neg known] at found
          obtain ⟨others, found, done⟩ := ok_of_bind found
          obtain ⟨new, distinct⟩ := ih _ _ found
          rw [← Except.ok.inj done]
          refine ⟨?_, .cons ?_ distinct⟩
          · intro other member
            rcases List.mem_cons.mp member with rfl | later
            · exact fun held => known (List.contains_iff_mem.mpr held)
            · exact fun held => new other later (List.mem_cons_of_mem _ held)
          · intro other later
            refine Bool.eq_false_iff.mpr fun alike => new other later ?_
            rw [← Text.lower_of_same _ _ alike]
            exact List.mem_cons_self

theorem targets_distinct (table : Table) (wellformed : table.Wellformed) (columns : List String)
    (targets : List Field) (found : Insertion.targets table columns = .ok targets) :
    targets.Pairwise fun a b => Text.same a.name b.name = false := by
  rw [Insertion.targets] at found
  split at found
  · exact Except.ok.inj found ▸ wellformed.distinct
  · exact (targets_from_distinct table columns [] targets found).2

theorem column_type_found {table : Table} {column : String} {type : DataType}
    (found : columnType table column = .ok type) :
    ∃ field ∈ table.fields, Text.same field.name column = true ∧ field.type = type := by
  rw [columnType] at found
  split at found
  · rename_i field held
    have named := Table.field_named held
    exact ⟨field, named.1, named.2, Except.ok.inj found⟩
  · cases found

end Insertion

theorem Scope.table_found {scope : Scope} {name : String} {table : Table} (found : scope.table name = .ok table) :
    ∃ id, scope.catalog.tables.get? id = some table := by
  obtain ⟨owner, -, held⟩ := Catalog.table_named_found (Catalog.ask_ok found)
  exact ⟨_, held⟩

-- Whether a statement asks for rows, and leaves everything as it is.
def Statement.asks : Statement → Bool
  | .select _ | .showDatabases | .showTables | .showColumns _ => true
  | _ => false

-- How a plan comes of a statement, with all that is checked on the way.
inductive Statement.CompilesTo (scope : Scope) : Statement → Plan → Prop
  | reading (statement : Statement) (plan : Plan) (asks : statement.asks = true) (reads : plan.reads = true) :
      CompilesTo scope statement plan
  | createDatabase (name : String) (ifNotExists : Bool) (options : SortedMap String String) :
      CompilesTo scope (.createDatabase name ifNotExists options) (.createDatabase name ifNotExists options)
  | dropDatabase (name : String) (ifExists : Bool) :
      CompilesTo scope (.dropDatabase name ifExists) (.dropDatabase name ifExists)
  | alterDatabase (name option setting : String) :
      CompilesTo scope (.alterDatabase name option setting) (.alterDatabase name option setting)
  | createTable (name : String) (ifNotExists : Bool) (columns : List Field) (description : Option String)
      (valid : validateColumns columns = .ok ()) :
      CompilesTo scope (.createTable name ifNotExists columns description)
        (.createTable scope.database name ifNotExists columns description)
  | dropTable (name : String) (ifExists : Bool) :
      CompilesTo scope (.dropTable name ifExists) (.dropTable scope.database name ifExists)
  | alterTable (name : String) (change : TableChange) (table : Table) (found : scope.table name = .ok table)
      (checked : change.check scope table = .ok ()) :
      CompilesTo scope (.alterTable name change) (.alterTable scope.database name change)
  -- The analysis leaves the name of the table that it found, and the compilation looks that up.
  | insert (name : String) (columns : List String) (rows analyzed : List (List Expr)) (table filled : Table)
      (targets : List Field) (types : List DataType) (bound : List (List PlanExpr))
      (found : scope.table name = .ok table) (targeted : Insertion.targets table columns = .ok targets)
      (checked : Insertion.checkTargets table targets = .ok ())
      (analysis : rows.zipIdx.mapM (fun entry => Insertion.analyzeRow targets entry.1 entry.2) = .ok analyzed)
      (again : scope.table table.name = .ok filled)
      (typed : (targets.map (·.name)).mapM (Insertion.columnType filled) = .ok types)
      (binds : analyzed.mapM (fun row => row.mapM (Expr.bind .empty)) = .ok bound) :
      CompilesTo scope (.insert name columns rows)
        (.insert ⟨filled.id, filled.name, targets.map (·.name), types, bound⟩)

theorem Statement.compiles_to (scope : Scope) (gate : DenyList) (statement : Statement) (plan : Plan)
    (compiled : statement.compile scope gate = .ok plan) : statement.CompilesTo scope plan := by
  obtain ⟨analyzed, analysis, compiled⟩ := ok_of_bind compiled
  cases statement with
  | select query =>
      obtain ⟨query, -, rfl⟩ := ok_of_map analysis
      exact .reading _ plan rfl (Select.compile_reads scope gate query plan compiled)
  | createDatabase name ifNotExists options =>
      cases analysis
      obtain ⟨_, -, compiled⟩ := ok_of_bind compiled
      cases compiled
      exact .createDatabase name ifNotExists options
  | dropDatabase name ifExists =>
      obtain rfl : analyzed = .dropDatabase name ifExists := by
        cases ifExists with
        | true => exact (Except.ok.inj analysis).symm
        | false =>
            obtain ⟨_, -, analysis⟩ := ok_of_bind analysis
            exact (Except.ok.inj analysis).symm
      obtain ⟨_, -, compiled⟩ := ok_of_bind compiled
      cases compiled
      exact .dropDatabase name ifExists
  | alterDatabase name option setting =>
      obtain ⟨_, -, analysis⟩ := ok_of_bind analysis
      cases analysis
      obtain ⟨_, -, compiled⟩ := ok_of_bind compiled
      cases compiled
      exact .alterDatabase name option setting
  | createTable name ifNotExists columns description =>
      obtain ⟨_, -, analysis⟩ := ok_of_bind analysis
      obtain ⟨_, valid, analysis⟩ := ok_of_bind analysis
      cases analysis
      obtain ⟨_, -, compiled⟩ := ok_of_bind compiled
      cases compiled
      exact .createTable name ifNotExists columns description valid
  | dropTable name ifExists =>
      obtain rfl : analyzed = .dropTable name ifExists := by
        cases ifExists with
        | true => exact (Except.ok.inj analysis).symm
        | false =>
            obtain ⟨_, -, analysis⟩ := ok_of_bind analysis
            exact (Except.ok.inj analysis).symm
      obtain ⟨_, -, compiled⟩ := ok_of_bind compiled
      cases compiled
      exact .dropTable name ifExists
  | alterTable name change =>
      obtain ⟨table, found, analysis⟩ := ok_of_bind analysis
      obtain ⟨_, checked, analysis⟩ := ok_of_bind analysis
      cases analysis
      obtain ⟨_, -, compiled⟩ := ok_of_bind compiled
      cases compiled
      exact .alterTable name change table found checked
  | insert name columns rows =>
      obtain ⟨table, found, analysis⟩ := ok_of_bind analysis
      obtain ⟨targets, targeted, analysis⟩ := ok_of_bind analysis
      obtain ⟨_, checked, analysis⟩ := ok_of_bind analysis
      obtain ⟨checkedRows, rowsAnalyzed, analysis⟩ := ok_of_bind analysis
      cases analysis
      obtain ⟨_, -, compiled⟩ := ok_of_bind compiled
      obtain ⟨filled, again, compiled⟩ := ok_of_bind compiled
      obtain ⟨types, typed, compiled⟩ := ok_of_bind compiled
      obtain ⟨bound, binds, compiled⟩ := ok_of_bind compiled
      cases compiled
      exact .insert name columns rows checkedRows table filled targets types bound found targeted checked rowsAnalyzed
        again typed binds
  | showDatabases =>
      cases analysis
      cases compiled
      exact .reading _ _ rfl rfl
  | showTables =>
      obtain ⟨_, -, analysis⟩ := ok_of_bind analysis
      cases analysis
      obtain ⟨_, -, compiled⟩ := ok_of_bind compiled
      cases compiled
      exact .reading _ _ rfl rfl
  | showColumns table =>
      obtain ⟨_, -, analysis⟩ := ok_of_bind analysis
      cases analysis
      obtain ⟨_, -, compiled⟩ := ok_of_bind compiled
      cases compiled
      exact .reading _ _ rfl rfl
  | createView | createFunction | createModel | delete =>
      cases analysis
      cases compiled

theorem Statement.compile_fits (scope : Scope) (statement : Statement) (plan : Plan) (filed : scope.catalog.Filed)
    (compiled : statement.CompilesTo scope plan) : plan.reads = true ∨ plan.mutates = true ∧ plan.Fits scope.catalog := by
  cases compiled with
  | reading _ _ _ reads => exact .inl reads
  | createDatabase | dropDatabase | alterDatabase | dropTable => exact .inr ⟨rfl, trivial⟩
  | createTable name ifNotExists columns description valid => exact .inr ⟨rfl, valid⟩
  | alterTable name change table found checked =>
      refine .inr ⟨rfl, ?_⟩
      cases change with
      | addColumn column => trivial
      | dropColumn column =>
          refine Bool.eq_false_iff.mpr fun isId => ?_
          simp only [TableChange.check, if_pos isId] at checked
          cases checked
  | insert name columns rows analyzed table filled targets types bound found targeted checked analysis again typed =>
      obtain ⟨id, stored⟩ := Scope.table_found again
      obtain ⟨id', stored'⟩ := Scope.table_found found
      refine .inr ⟨rfl, id, filled, stored, rfl, ?_, ?_⟩
      · exact (map_m_ok_iff.mp typed).imp fun _ _ => Insertion.column_type_found
      · exact List.pairwise_map.mpr
          (Insertion.targets_distinct table (filed.wellformed id' table stored') columns targets targeted)

end ShardQuery
