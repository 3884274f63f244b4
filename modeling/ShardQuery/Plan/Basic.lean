import ShardQuery.Plan.Expr
import ShardQuery.Statement.Basic
/-!
Plans: trees of operators. Every operator has at most one child.
-/

set_option autoImplicit false

namespace ShardQuery

structure SortKey where
  key : PlanExpr
  descending : Bool
deriving BEq

structure InsertPlan where
  table : TableId
  tableName : String
  columns : List String
  types : List DataType
  rows : List (List PlanExpr)
deriving BEq

inductive Plan where
  | scan (table : TableId) (tableName : String) (fields : List String) (schema : Schema)
  | values (rows : List Row) (schema : Schema)
  | filter (predicate : PlanExpr) (child : Plan)
  | project (exprs : List PlanExpr) (schema : Schema) (child : Plan)
  | distinct (child : Plan)
  -- The child runs once on every node that serves a shard of the table.
  | fanOut (table : TableId) (child : Plan)
  | orderBy (keys : List SortKey) (child : Plan)
  | limit (window : Window) (child : Plan)
  | createDatabase (name : String) (ifNotExists : Bool) (options : SortedMap String String)
  | dropDatabase (name : String) (ifExists : Bool)
  | alterDatabase (name option setting : String)
  | createTable (database name : String) (ifNotExists : Bool) (fields : List Field)
      (description : Option String)
  | dropTable (database name : String) (ifExists : Bool)
  | alterTable (database table : String) (change : TableChange)
  | insert (insertion : InsertPlan)
  | showDatabases
  | showTables (database : String)
  | showColumns (database table : String)
deriving Inhabited, BEq

namespace Plan

def name : Plan → String
  | .scan .. => "PlanOpTableScan"
  | .values .. => "PlanOpValues"
  | .filter .. => "PlanOpFilter"
  | .project .. => "PlanOpProjection"
  | .distinct _ => "PlanOpDistinct"
  | .fanOut .. => "PlanOpFanOut"
  | .orderBy .. => "PlanOpOrderBy"
  | .limit .. => "PlanOpLimit"
  | .createDatabase .. => "PlanOpCreateDatabase"
  | .dropDatabase .. => "PlanOpDropDatabase"
  | .alterDatabase .. => "PlanOpAlterDatabase"
  | .createTable .. => "PlanOpCreateTable"
  | .dropTable .. => "PlanOpDropTable"
  | .alterTable .. => "PlanOpAlterTable"
  | .insert _ => "PlanOpInsert"
  | .showDatabases => "PlanOpShowDatabases"
  | .showTables _ => "PlanOpShowTables"
  | .showColumns .. => "PlanOpShowColumns"

def textColumn (name : String) : Column := ⟨name, .string, false, none⟩

def schema : Plan → Schema
  | .scan _ _ _ schema => schema
  | .values _ schema => schema
  | .project _ schema _ => schema
  | .filter _ child | .distinct child | .fanOut _ child | .orderBy _ child | .limit _ child => child.schema
  | .showDatabases => ⟨[textColumn "name", textColumn "id"]⟩
  | .showTables _ => ⟨[textColumn "name", textColumn "key", .plain "description" .string]⟩
  | .showColumns .. => ⟨[textColumn "name", textColumn "type", ⟨"nullable", .bool, false, none⟩]⟩
  | _ => .empty

def child? : Plan → Option Plan
  | .filter _ child | .project _ _ child | .distinct child | .fanOut _ child | .orderBy _ child
  | .limit _ child => some child
  | _ => none

-- The operator over another child; an operator without a child stays as it is.
def withChild (plan child : Plan) : Plan :=
  match plan with
  | .filter predicate _ => .filter predicate child
  | .project exprs schema _ => .project exprs schema child
  | .distinct _ => .distinct child
  | .fanOut table _ => .fanOut table child
  | .orderBy keys _ => .orderBy keys child
  | .limit window _ => .limit window child
  | _ => plan

-- Replaces the children, of which there must be as many as the operator has.
def withChildren (plan : Plan) (children : List Plan) : Outcome Plan :=
  match plan.child?, children with
  | none, [] => .ok plan
  | some _, [child] => .ok (plan.withChild child)
  | _, _ => .error (.internal s!"unexpected number of children '{children.length}'")

def distinctCount : Plan → Nat
  | .distinct child => child.distinctCount + 1
  | .filter _ child | .project _ _ child | .fanOut _ child | .orderBy _ child | .limit _ child =>
      child.distinctCount
  | _ => 0

end Plan

end ShardQuery
