import ShardQuery.Statement.Typing
import ShardQuery.Catalog
/-!
Analysis of statements against the catalog. The result is the statement with wildcards expanded,
references qualified and literals converted to the types they meet.
-/

set_option autoImplicit false

namespace ShardQuery

structure Scope where
  catalog : Catalog
  database : String
  -- Whether a table holds rows, where that is known.
  holdsRows : Option (TableId → Bool)

namespace Catalog

def ask {α : Type} (lookup : Lookup α) : Outcome α := lookup.mapError .catalog

end Catalog

namespace Scope

def table (scope : Scope) (name : String) : Outcome Table :=
  Catalog.ask (scope.catalog.tableNamed scope.database name)

def databaseNamed (scope : Scope) (name : String) : Outcome Database :=
  Catalog.ask (scope.catalog.databaseNamed name)

end Scope

namespace SelectItem

def wildcardTakes (relation : Option String) (column : Column) : Bool :=
  match relation, column.relation with
  | none, _ => true
  | some wanted, some own => Text.same own wanted
  | some _, none => false

def expandWildcard (relation : Option String) (input : Schema) : Outcome (List SelectItem) :=
  let items := (input.columns.filter (wildcardTakes relation)).map fun column =>
    SelectItem.expr (.ofColumn column) none
  match relation with
  | some wanted =>
      if items.isEmpty then .error (.validation s!"relation '{wanted}' is not in scope") else .ok items
  | none => .ok items

def analyze (input : Schema) : SelectItem → Outcome (List SelectItem)
  | .wildcard relation => expandWildcard relation input
  | .expr e alias? => do
      let e ← e.qualify input
      let _ ← e.type input
      return [.expr e alias?]

end SelectItem

namespace Select

def analyzeCondition (input : Schema) (condition : Expr) : Outcome Expr := do
  let condition ← condition.qualify input
  match ← condition.type input with
  | none | some .bool => return condition
  | some other => throw (.typeMismatch s!"WHERE clause {condition.text} is {other.text}, not bool")

-- Sort keys see the output columns, and sets have no order.
def analyzeOrder (output : Schema) (item : OrderItem) : Outcome OrderItem := do
  let key ← item.key.qualify output
  match ← key.type output with
  | some .idSet => throw (.typeMismatch s!"cannot sort by {key.text} of type {DataType.idSet.text}")
  | some .stringSet => throw (.typeMismatch s!"cannot sort by {key.text} of type {DataType.stringSet.text}")
  | _ => return ⟨key, item.descending⟩

def input (scope : Scope) (query : Select) : Outcome Schema :=
  match query.source? with
  | some source => (scope.table source.name).map fun table => table.schema source.relation
  | none => .ok .empty

def analyze (scope : Scope) (query : Select) : Outcome Select := do
  let input ← query.input scope
  let projection := (← query.projection.mapM (SelectItem.analyze input)).flatten
  let condition? ← query.condition?.mapM (analyzeCondition input)
  let output ← outputSchema projection input
  let orderBy ← query.orderBy.mapM (analyzeOrder output)
  return { query with projection, condition?, orderBy }

end Select

def checkScale (type : DataType) : Outcome Unit :=
  match type with
  | .decimal scale =>
      if DataType.maxScale < scale then
        .error (.validation s!"decimal scale {scale.toNat} exceeds {DataType.maxScale.toNat}")
      else .ok ()
  | _ => .ok ()

-- Names must be new, up to case, and scales within the limit.
def checkColumns (seen : List String) : List Field → Outcome Unit
  | [] => .ok ()
  | column :: rest => do
      let key := Text.lower column.name
      if seen.contains key then throw (.validation s!"duplicate column '{column.name}'")
      checkScale column.type
      checkColumns (key :: seen) rest

def validateColumns (columns : List Field) : Outcome Unit :=
  match columns.head? with
  | some first =>
      if first.name == idColumn && first.type == .id then checkColumns [] columns
      else .error (.validation s!"first column must be '{idColumn}' of type id")
  | none => .error (.validation s!"first column must be '{idColumn}' of type id")

-- Rows that are there already would hold null in a new column, so it must be nullable then.
def checkAddColumn (holdsRows : TableId → Bool) (table : Table) (column : Field) : Outcome Unit :=
  if !column.nullable && holdsRows table.id then
    .error (.validation
      s!"cannot add non-nullable column '{column.name}' to table '{table.name}' holding rows")
  else .ok ()

def TableChange.check (scope : Scope) (table : Table) : TableChange → Outcome Unit
  | .addColumn column => do
      if (table.field? column.name).isSome then throw (.catalog (.fieldExists column.name))
      match scope.holdsRows with
      | some holdsRows => checkAddColumn holdsRows table column
      | none => .ok ()
      checkScale column.type
  | .dropColumn name => do
      if Text.same name idColumn then throw (.validation s!"cannot drop '{idColumn}'")
      if (table.field? name).isNone then throw (.catalog (.fieldMissing name))

namespace Insertion

def targetsFrom (table : Table) (seen : List String) : List String → Outcome (List Field)
  | [] => .ok []
  | name :: rest => do
      match table.field? name with
      | none => throw (.unknownColumn s!"{table.name}.{name}")
      | some field =>
          let key := Text.lower field.name
          if seen.contains key then throw (.validation s!"column '{name}' given more than once")
          return field :: (← targetsFrom table (key :: seen) rest)

-- Without a column list an insert fills all fields.
def targets (table : Table) (columns : List String) : Outcome (List Field) :=
  if columns.isEmpty then .ok table.fields else targetsFrom table [] columns

-- The record id is among the targets, and so is every field that cannot be null.
def checkTargets (table : Table) (targets : List Field) : Outcome Unit :=
  if targets.all (·.name != idColumn) then
    .error (.validation s!"insert into {table.name} must set '{idColumn}'")
  else
    match table.fields.find? fun field => !field.nullable && targets.all (·.name != field.name) with
    | some field => .error (.validation s!"column '{field.name}' is not nullable")
    | none => .ok ()

-- A literal becomes a value of the field's type; other expressions have a type that compares with it. No column
-- is in scope.
def analyzeValue (e : Expr) (field : Field) : Outcome Expr := do
  let e ← (match e with
    | .literal v => (v.coerce field.type).map .literal
    | other => .ok other : Outcome Expr)
  match ← e.type .empty, e with
  | some type, _ =>
      if type.comparable field.type then return e
      else throw (.typeMismatch
        s!"value {e.text} of type {type.text} for column '{field.name}' of type {field.type.text}")
  | none, .literal _ =>
      if !field.nullable || field.name == idColumn then
        throw (.validation s!"column '{field.name}' cannot be null")
      else return e
  | none, _ => return e

def analyzeRow (targets : List Field) (row : List Expr) (i : Nat) : Outcome (List Expr) :=
  if row.length = targets.length then
    (row.zip targets).mapM fun entry => analyzeValue entry.1 entry.2
  else .error (.validation s!"row {i} has {row.length} values for {targets.length} columns")

def analyze (scope : Scope) (name : String) (columns : List String) (rows : List (List Expr)) :
    Outcome Statement := do
  let table ← scope.table name
  let targets ← targets table columns
  checkTargets table targets
  let rows ← rows.zipIdx.mapM fun entry => analyzeRow targets entry.1 entry.2
  return .insert table.name (targets.map (·.name)) rows

end Insertion

-- Statements that cannot be planned are left as they are.
def Statement.analyze (scope : Scope) (statement : Statement) : Outcome Statement :=
  match statement with
  | .select query => (query.analyze scope).map .select
  | .insert table columns rows => Insertion.analyze scope table columns rows
  | .createTable _ _ columns _ => do
      let _ ← scope.databaseNamed scope.database
      validateColumns columns
      return statement
  | .alterTable name change => do
      change.check scope (← scope.table name)
      return statement
  | .dropTable name ifExists => do
      if !ifExists then let _ ← scope.table name
      return statement
  | .dropDatabase name ifExists => do
      if !ifExists then let _ ← scope.databaseNamed name
      return statement
  | .alterDatabase name _ _ => do
      let _ ← scope.databaseNamed name
      return statement
  | .showTables => do
      let _ ← scope.databaseNamed scope.database
      return statement
  | .showColumns table => do
      let _ ← scope.table table
      return statement
  | .createDatabase .. | .showDatabases | .createView .. | .createFunction _ | .createModel _
  | .delete .. => .ok statement

end ShardQuery
