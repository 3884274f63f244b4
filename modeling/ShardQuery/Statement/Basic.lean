import ShardQuery.Statement.Expr
import ShardQuery.Table
/-!
Statements.
-/

set_option autoImplicit false

namespace ShardQuery

inductive SelectItem where
  | wildcard (relation : Option String)
  | expr (e : Expr) (alias? : Option String)

structure TableRef where
  name : String
  alias? : Option String
deriving DecidableEq

def TableRef.relation (table : TableRef) : String := table.alias?.getD table.name

structure OrderItem where
  key : Expr
  descending : Bool

structure Window where
  limit : UInt64
  offset : UInt64
deriving DecidableEq

structure Select where
  distinct : Bool
  projection : List SelectItem
  source? : Option TableRef
  condition? : Option Expr
  orderBy : List OrderItem
  window? : Option Window

inductive TableChange where
  | addColumn (field : Field)
  | dropColumn (name : String)
deriving DecidableEq

inductive Statement where
  | select (query : Select)
  | createDatabase (name : String) (ifNotExists : Bool) (options : SortedMap String String)
  | dropDatabase (name : String) (ifExists : Bool)
  | alterDatabase (name option setting : String)
  | createTable (name : String) (ifNotExists : Bool) (columns : List Field) (description : Option String)
  | dropTable (name : String) (ifExists : Bool)
  | alterTable (name : String) (change : TableChange)
  | insert (table : String) (columns : List String) (rows : List (List Expr))
  | showDatabases
  | showTables
  | showColumns (table : String)
  | createView (name : String) (query : Select)
  | createFunction (name : String)
  | createModel (name : String)
  | delete (table : String) (condition? : Option Expr)

def Statement.shape : Statement → String
  | .select _ => "SelectStatement"
  | .createDatabase .. => "CreateDatabaseStatement"
  | .dropDatabase .. => "DropDatabaseStatement"
  | .alterDatabase .. => "AlterDatabaseStatement"
  | .createTable .. => "CreateTableStatement"
  | .dropTable .. => "DropTableStatement"
  | .alterTable .. => "AlterTableStatement"
  | .insert .. => "InsertStatement"
  | .showDatabases => "ShowDatabasesStatement"
  | .showTables => "ShowTablesStatement"
  | .showColumns _ => "ShowColumnsStatement"
  | .createView .. => "CreateViewStatement"
  | .createFunction _ => "CreateFunctionStatement"
  | .createModel _ => "CreateModelStatement"
  | .delete .. => "DeleteStatement"

end ShardQuery
