import ShardQuery.Plan.Basic
import ShardQuery.Statement.Analysis
import ShardQuery.Access
/-!
Compilation of analyzed statements into plans. Every object is checked at the gate before an operator
that touches it is built.
-/

set_option autoImplicit false

namespace ShardQuery

def Expr.bind (schema : Schema) : Expr → Outcome PlanExpr
  | .column table name => do return .column (← schema.resolve table name)
  | .literal v => .ok (.literal v)
  | .binary left op right => do return .binary (← bind schema left) op (← bind schema right)
  | .not e => do return .not (← bind schema e)
  | .isNull e negated => do return .isNull (← bind schema e) negated

def SelectItem.bind (schema : Schema) : SelectItem → Outcome PlanExpr
  | .expr e _ => e.bind schema
  | .wildcard _ => .error wildcardLeft

namespace Select

-- The part that runs where the rows are: condition, projection, and a first removal of duplicates.
def compileLocal (query : Select) (source : Plan) : Outcome Plan := do
  let input := source.schema
  let filtered ← (match query.condition? with
    | some condition => (condition.bind input).map fun predicate => .filter predicate source
    | none => .ok source : Outcome Plan)
  let exprs ← query.projection.mapM (SelectItem.bind input)
  let projected := Plan.project exprs (← outputSchema query.projection input) filtered
  return if query.distinct then .distinct projected else projected

def compileScan (table : Table) (relation : String) : Plan :=
  .scan table.id table.name (table.fields.map (·.name)) (table.schema relation)

def compileRows (scope : Scope) (gate : DenyList) (query : Select) : Outcome Plan :=
  match query.source? with
  | some source => do
      gate.check source.name .read
      let table ← scope.table source.name
      let here ← query.compileLocal (compileScan table source.relation)
      let everywhere := Plan.fanOut table.id here
      return if query.distinct then .distinct everywhere else everywhere
  | none => query.compileLocal (.values [.empty] .empty)

def compile (scope : Scope) (gate : DenyList) (query : Select) : Outcome Plan := do
  let rows ← query.compileRows scope gate
  let keys ← query.orderBy.mapM fun item => do
    return (⟨← item.key.bind rows.schema, item.descending⟩ : SortKey)
  let sorted := if keys.isEmpty then rows else .orderBy keys rows
  return match query.window? with
    | some window => .limit window sorted
    | none => sorted

end Select

namespace Insertion

def columnType (table : Table) (column : String) : Outcome DataType :=
  match table.field? column with
  | some field => .ok field.type
  | none => .error (.unknownColumn s!"{table.name}.{column}")

def compile (scope : Scope) (name : String) (columns : List String) (rows : List (List Expr)) :
    Outcome Plan := do
  let table ← scope.table name
  let types ← columns.mapM (columnType table)
  let rows ← rows.mapM fun row => row.mapM (Expr.bind .empty)
  return .insert ⟨table.id, table.name, columns, types, rows⟩

end Insertion

namespace Statement

def plan (scope : Scope) (gate : DenyList) (statement : Statement) : Outcome Plan :=
  match statement with
  | .select query => query.compile scope gate
  | .createDatabase name ifNotExists options => do
      gate.check name .create
      return .createDatabase name ifNotExists options
  | .dropDatabase name ifExists => do
      gate.check name .drop
      return .dropDatabase name ifExists
  | .alterDatabase name option setting => do
      gate.check name .alter
      return .alterDatabase name option setting
  | .createTable name ifNotExists columns description => do
      gate.check name .create
      return .createTable scope.database name ifNotExists columns description
  | .dropTable name ifExists => do
      gate.check name .drop
      return .dropTable scope.database name ifExists
  | .alterTable name change => do
      gate.check name .alter
      return .alterTable scope.database name change
  | .insert table columns rows => do
      gate.check table .write
      Insertion.compile scope table columns rows
  | .showDatabases => .ok .showDatabases
  | .showTables => do
      gate.check scope.database .read
      return .showTables scope.database
  | .showColumns table => do
      gate.check table .read
      return .showColumns scope.database table
  | .createView .. | .createFunction _ | .createModel _ | .delete .. =>
      .error (.internal s!"cannot plan statement: {statement.shape}")

def compile (scope : Scope) (gate : DenyList) (statement : Statement) : Outcome Plan := do
  (← statement.analyze scope).plan scope gate

end Statement

end ShardQuery
