import ShardQuery.Plan.Basic
/-!
The description of a plan: each operator with its schema and its main settings, then its child.
-/

set_option autoImplicit false

namespace ShardQuery

def SortKey.text (sortKey : SortKey) : String :=
  sortKey.key.text ++ if sortKey.descending then " desc" else " asc"

namespace Plan

def settings : Plan → List (String × Description)
  | .scan _ tableName _ _ => [("table", .text tableName)]
  | .values rows _ => [("rows", .number rows.length)]
  | .filter predicate _ => [("predicate", .text predicate.text)]
  | .project exprs _ _ => [("exprs", .list (exprs.map fun e => .text e.text))]
  | .distinct _ | .fanOut .. => []
  | .orderBy keys _ => [("keys", .list (keys.map fun sortKey => .text sortKey.text))]
  | .limit window _ => [("limit", .number window.limit.toNat), ("offset", .number window.offset.toNat)]
  | .createDatabase name .. | .dropDatabase name _ | .alterDatabase name .. => [("database", .text name)]
  | .createTable _ name .. | .dropTable _ name _ | .alterTable _ name _ | .showColumns _ name =>
      [("table", .text name)]
  | .insert insertion => [("table", .text insertion.tableName), ("rows", .number insertion.rows.length)]
  | .showDatabases | .showTables _ => []

def describe (plan : Plan) : Description :=
  let own := ("_op", .text plan.name) :: ("_schema", plan.schema.describe) :: plan.settings
  match plan with
  | .filter _ child | .project _ _ child | .distinct child | .fanOut _ child | .orderBy _ child
  | .limit _ child => .record (own ++ [("child", child.describe)])
  | _ => .record own

end Plan

end ShardQuery
