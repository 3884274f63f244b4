import ShardQuery.Plan.Expr
import ShardQuery.Statement.Analysis
/-!
What queries mean, read off the statements as they are written: names are looked up in the columns of the row at hand,
and nothing is rewritten first.
-/

set_option autoImplicit false

namespace ShardQuery

-- The value of an expression on a row, whose columns go by their names.
def Expr.valueIn (schema : Schema) (row : Row) : Expr → Outcome Value
  | .column table name => do PlanExpr.columnOf row (← schema.resolve table name)
  | .literal v => .ok v
  | .not e => (valueIn schema row e).bind PlanExpr.negate
  | .isNull e negated => (valueIn schema row e).map fun v => .bool (v.isNull != negated)
  | .binary left op right =>
      (valueIn schema row left).bind fun l =>
        if op.isLogical then
          (PlanExpr.truth l).bind fun a =>
            if a = some (PlanExpr.dominant op) then .ok (.bool (PlanExpr.dominant op))
            else (valueIn schema row right).bind fun r => (PlanExpr.truth r).map fun b => PlanExpr.connect op a b
        else (valueIn schema row right).bind fun r => PlanExpr.apply op l r

-- The values of a row that a wildcard or an expression stands for.
def SelectItem.valuesIn (schema : Schema) (row : Row) : SelectItem → Outcome (List Value)
  | .wildcard relation =>
      .ok (((schema.columns.zip row.values).filter fun entry => wildcardTakes relation entry.1).map (·.2))
  | .expr e _ => (e.valueIn schema row).map ([·])

namespace OrderItem

-- Nulls come first in either direction.
def compareValues (item : OrderItem) (a b : Value) : Ordering :=
  let order := (a.order? b).getD .eq
  if item.descending && !a.isNull && !b.isNull then order.swap else order

-- The first key that tells two rows apart decides.
def compareKeys : List OrderItem → List Value → List Value → Ordering
  | item :: items, a :: as, b :: bs => (item.compareValues a b).then (compareKeys items as bs)
  | _, _, _ => .eq

end OrderItem

namespace Select

-- Whether the condition of a query is true of a row.
def keeps (query : Select) (schema : Schema) (row : Row) : Outcome Bool :=
  match query.condition? with
  | some condition => (condition.valueIn schema row).map fun v => v.asBool? == some true
  | none => .ok true

def imageIn (query : Select) (schema : Schema) (row : Row) : Outcome Row :=
  (query.projection.mapM (SelectItem.valuesIn schema row)).map fun values => ⟨values.flatten⟩

-- The projection of the rows that the condition is true of.
def images (query : Select) (schema : Schema) (records : List Row) : Outcome (List Row) := do
  (← records.filterM (query.keeps schema)).mapM (query.imageIn schema)

def merged (query : Select) (rows : List Row) : List Row :=
  if query.distinct then Row.firstOccurrences rows else rows

def keysIn (query : Select) (output : Schema) (row : Row) : Outcome (List Value) :=
  query.orderBy.mapM fun item => item.key.valueIn output row

def sorted (query : Select) (output : Schema) (rows : List Row) : Outcome (List Row) := do
  let keyed ← rows.mapM fun row => (query.keysIn output row).map (·, row)
  return (keyed.mergeSort fun a b => OrderItem.compareKeys query.orderBy a.1 b.1 != .gt).map (·.2)

def windowed (query : Select) (rows : List Row) : List Row :=
  match query.window? with
  | some window => (rows.drop window.offset.toNat).take window.limit.toNat
  | none => rows

-- The rows that a query gives on records: `input` are their columns, and `output` those of the rows that it gives.
def answer (query : Select) (input output : Schema) (records : List Row) : Outcome (List Row) := do
  let rows ← query.images input records
  return query.windowed (← query.sorted output (query.merged rows))

end Select

end ShardQuery
