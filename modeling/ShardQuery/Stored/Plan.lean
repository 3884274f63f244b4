import ShardQuery.Cbor.Codec
import ShardQuery.Stored.Value
import ShardQuery.Plan.Basic
/-!
The stored form of plans, for running a compiled statement again later.
-/

set_option autoImplicit false

namespace ShardQuery

open Cbor

namespace BinaryOp

def variants : List String :=
  ["Eq", "NotEq", "Lt", "LtEq", "Gt", "GtEq", "And", "Or", "Plus", "Minus", "Multiply"]

def toItem (op : BinaryOp) (forms : Forms := .derived) : Item :=
  match op with
  | .eq => forms.bare "Eq"
  | .notEq => forms.bare "NotEq"
  | .lt => forms.bare "Lt"
  | .ltEq => forms.bare "LtEq"
  | .gt => forms.bare "Gt"
  | .gtEq => forms.bare "GtEq"
  | .and => forms.bare "And"
  | .or => forms.bare "Or"
  | .plus => forms.bare "Plus"
  | .minus => forms.bare "Minus"
  | .multiply => forms.bare "Multiply"

def ofItem? (forms : Forms := .derived) (item : Item) : Option BinaryOp :=
  match forms.variant? variants item with
  | some (i, content) =>
      (forms.bare? content).bind fun _ =>
        [eq, notEq, lt, ltEq, gt, gtEq, and, or, plus, minus, multiply][i]?
  | none => none

end BinaryOp

namespace PlanExpr

def variants : List String := ["Column", "Outer", "Literal", "Binary", "Not", "IsNull"]

def toItem (e : PlanExpr) (forms : Forms := .derived) : Item :=
  match e with
  | .column i => forms.variant "Column" (.natural i)
  | .outer i => forms.variant "Outer" (.natural i)
  | .literal v => forms.variant "Literal" (v.toItem forms)
  | .binary left op right => forms.variant "Binary"
      (forms.fields [("left", left.toItem forms), ("op", op.toItem forms), ("right", right.toItem forms)])
  | .not e => forms.variant "Not" (e.toItem forms)
  | .isNull e negated =>
      forms.variant "IsNull" (forms.fields [("expr", e.toItem forms), ("negated", .bool negated)])

def read? (forms : Forms) : Nat → Item → Option PlanExpr
  | 0, _ => none
  | fuel + 1, item =>
      match forms.variant? variants item with
      | some (0, some content) => (forms.natural? (2 ^ 64) content).map .column
      | some (1, some content) => (forms.natural? (2 ^ 64) content).map .outer
      | some (2, some content) => (Value.ofItem? forms content).map .literal
      | some (3, some content) =>
          match forms.fields? ["left", "op", "right"] content with
          | some [some left, some op, some right] => do
              let left ← read? forms fuel left
              let op ← BinaryOp.ofItem? forms op
              let right ← read? forms fuel right
              return .binary left op right
          | _ => none
      | some (4, some content) => (read? forms fuel content).map .not
      | some (5, some content) =>
          match forms.fields? ["expr", "negated"] content with
          | some [some e, some negated] => do
              let e ← read? forms fuel e
              let negated ← forms.bool? negated
              return .isNull e negated
          | _ => none
      | _ => none

def ofItem? (forms : Forms := .derived) (item : Item) : Option PlanExpr := read? forms (item.depth + 1) item

end PlanExpr

namespace SortKey

def toItem (sortKey : SortKey) (forms : Forms := .derived) : Item :=
  forms.fields [("expr", sortKey.key.toItem forms), ("descending", .bool sortKey.descending)]

def ofItem? (forms : Forms := .derived) (item : Item) : Option SortKey :=
  match forms.fields? ["expr", "descending"] item with
  | some [some key, some descending] => do
      let key ← PlanExpr.ofItem? forms key
      let descending ← forms.bool? descending
      return ⟨key, descending⟩
  | _ => none

end SortKey

namespace TableChange

def toItem (change : TableChange) (forms : Forms := .derived) : Item :=
  match change with
  | .addColumn field => forms.variant "AddColumn" (field.toItem forms)
  | .dropColumn name => forms.variant "DropColumn" (.text name)

def ofItem? (forms : Forms := .derived) (item : Item) : Option TableChange :=
  match forms.variant? ["AddColumn", "DropColumn"] item with
  | some (0, some content) => (Field.ofItem? forms content).map .addColumn
  | some (1, some content) => (forms.text? content).map .dropColumn
  | _ => none

end TableChange

namespace InsertPlan

def toItem (insertion : InsertPlan) (forms : Forms := .derived) : Item :=
  forms.fields [("table", .ofWord insertion.table.code), ("table_name", .text insertion.tableName),
    ("columns", .ofList .text insertion.columns), ("dtypes", .ofList (DataType.toItem · forms) insertion.types),
    ("rows", .ofList (.ofList (PlanExpr.toItem · forms)) insertion.rows)]

def ofItem? (forms : Forms := .derived) (item : Item) : Option InsertPlan :=
  match forms.fields? ["table", "table_name", "columns", "dtypes", "rows"] item with
  | some [some table, some tableName, some columns, some types, some rows] => do
      let table ← forms.word? table
      let tableName ← forms.text? tableName
      let columns ← forms.list? forms.text? columns
      let types ← forms.list? (DataType.ofItem? forms) types
      let rows ← forms.list? (forms.list? (PlanExpr.ofItem? forms)) rows
      return ⟨⟨table⟩, tableName, columns, types, rows⟩
  | _ => none

end InsertPlan

def optionsItem (options : SortedMap String String) : Item :=
  .map (options.entries.map fun option => (.text option.1, .text option.2))

def options? (forms : Forms) (item : Item) : Option (SortedMap String String) := do
  let members ← forms.members? item
  let options ← members.mapM fun member =>
    (forms.text? member.1).bind fun key => (forms.text? member.2).map fun setting => (key, setting)
  return SortedMap.ofList options

namespace Plan

def variants : List String :=
  ["TableScan", "Values", "Filter", "Projection", "Distinct", "FanOut", "OrderBy", "Limit",
    "CreateDatabase", "DropDatabase", "AlterDatabase", "CreateTable", "DropTable", "AlterTable", "Insert",
    "ShowDatabases", "ShowTables", "ShowColumns"]

def toItem (plan : Plan) (forms : Forms := .derived) : Item :=
  match plan with
  | .scan table tableName fields schema =>
      forms.variant "TableScan" (forms.fields [("table", .ofWord table.code), ("table_name", .text tableName),
        ("fields", .ofList .text fields), ("schema", schema.toItem forms)])
  | .values rows schema =>
      forms.variant "Values"
        (forms.fields [("rows", .ofList (Row.toItem · forms) rows), ("schema", schema.toItem forms)])
  | .filter predicate child =>
      forms.variant "Filter" (forms.fields [("predicate", predicate.toItem forms), ("child", child.toItem forms)])
  | .project exprs schema child =>
      forms.variant "Projection" (forms.fields [("exprs", .ofList (PlanExpr.toItem · forms) exprs),
        ("schema", schema.toItem forms), ("child", child.toItem forms)])
  | .distinct child => forms.variant "Distinct" (forms.fields [("child", child.toItem forms)])
  | .fanOut table child =>
      forms.variant "FanOut" (forms.fields [("table", .ofWord table.code), ("child", child.toItem forms)])
  | .orderBy keys child =>
      forms.variant "OrderBy"
        (forms.fields [("keys", .ofList (SortKey.toItem · forms) keys), ("child", child.toItem forms)])
  | .limit window child =>
      forms.variant "Limit" (forms.fields [("limit", .ofWord window.limit), ("offset", .ofWord window.offset),
        ("child", child.toItem forms)])
  | .createDatabase name ifNotExists options =>
      forms.variant "CreateDatabase" (forms.fields [("name", .text name), ("if_not_exists", .bool ifNotExists),
        ("options", optionsItem options)])
  | .dropDatabase name ifExists =>
      forms.variant "DropDatabase" (forms.fields [("name", .text name), ("if_exists", .bool ifExists)])
  | .alterDatabase name option setting =>
      forms.variant "AlterDatabase" (forms.fields [("name", .text name), ("option", .text option),
        ("value", .text setting)])
  | .createTable database name ifNotExists fields description =>
      forms.variant "CreateTable" (forms.fields [("database", .text database), ("name", .text name),
        ("if_not_exists", .bool ifNotExists), ("fields", .ofList (Field.toItem · forms) fields),
        ("description", .ofOption .text description)])
  | .dropTable database name ifExists =>
      forms.variant "DropTable" (forms.fields [("database", .text database), ("name", .text name),
        ("if_exists", .bool ifExists)])
  | .alterTable database table change =>
      forms.variant "AlterTable" (forms.fields [("database", .text database), ("table", .text table),
        ("operation", change.toItem forms)])
  | .insert insertion => forms.variant "Insert" (insertion.toItem forms)
  | .showDatabases => forms.variant "ShowDatabases" .null
  | .showTables database => forms.variant "ShowTables" (forms.fields [("database", .text database)])
  | .showColumns database table =>
      forms.variant "ShowColumns" (forms.fields [("database", .text database), ("table", .text table)])

def readLeaf? (forms : Forms) (operator : Nat) (content : Item) : Option Plan :=
  match operator with
  | 0 =>
      match forms.fields? ["table", "table_name", "fields", "schema"] content with
      | some [some table, some tableName, some fields, some schema] => do
          let table ← forms.word? table
          let tableName ← forms.text? tableName
          let fields ← forms.list? forms.text? fields
          let schema ← Schema.ofItem? forms schema
          return .scan ⟨table⟩ tableName fields schema
      | _ => none
  | 1 =>
      match forms.fields? ["rows", "schema"] content with
      | some [some rows, some schema] => do
          let rows ← forms.list? (Row.ofItem? forms) rows
          let schema ← Schema.ofItem? forms schema
          return .values rows schema
      | _ => none
  | 8 =>
      match forms.fields? ["name", "if_not_exists", "options"] content with
      | some [some name, some ifNotExists, some options] => do
          let name ← forms.text? name
          let ifNotExists ← forms.bool? ifNotExists
          let options ← options? forms options
          return .createDatabase name ifNotExists options
      | _ => none
  | 9 =>
      match forms.fields? ["name", "if_exists"] content with
      | some [some name, some ifExists] => do
          let name ← forms.text? name
          let ifExists ← forms.bool? ifExists
          return .dropDatabase name ifExists
      | _ => none
  | 10 =>
      match forms.fields? ["name", "option", "value"] content with
      | some [some name, some option, some setting] => do
          let name ← forms.text? name
          let option ← forms.text? option
          let setting ← forms.text? setting
          return .alterDatabase name option setting
      | _ => none
  | 11 =>
      match forms.fields? ["database", "name", "if_not_exists", "fields", "description"] content with
      | some [some database, some name, some ifNotExists, some fields, description] => do
          let database ← forms.text? database
          let name ← forms.text? name
          let ifNotExists ← forms.bool? ifNotExists
          let fields ← forms.list? (Field.ofItem? forms) fields
          let description ← forms.optional? forms.text? (description.getD .null)
          return .createTable database name ifNotExists fields description
      | _ => none
  | 12 =>
      match forms.fields? ["database", "name", "if_exists"] content with
      | some [some database, some name, some ifExists] => do
          let database ← forms.text? database
          let name ← forms.text? name
          let ifExists ← forms.bool? ifExists
          return .dropTable database name ifExists
      | _ => none
  | 13 =>
      match forms.fields? ["database", "table", "operation"] content with
      | some [some database, some table, some change] => do
          let database ← forms.text? database
          let table ← forms.text? table
          let change ← TableChange.ofItem? forms change
          return .alterTable database table change
      | _ => none
  | 14 => (InsertPlan.ofItem? forms content).map .insert
  | 15 => (forms.unit? content).map fun _ => .showDatabases
  | 16 =>
      match forms.fields? ["database"] content with
      | some [some database] => (forms.text? database).map .showTables
      | _ => none
  | 17 =>
      match forms.fields? ["database", "table"] content with
      | some [some database, some table] => do
          let database ← forms.text? database
          let table ← forms.text? table
          return .showColumns database table
      | _ => none
  | _ => none

def read? (forms : Forms) : Nat → Item → Option Plan
  | 0, _ => none
  | fuel + 1, item =>
      match forms.variant? variants item with
      | some (2, some content) =>
          match forms.fields? ["predicate", "child"] content with
          | some [some predicate, some child] => do
              let predicate ← PlanExpr.ofItem? forms predicate
              let child ← read? forms fuel child
              return .filter predicate child
          | _ => none
      | some (3, some content) =>
          match forms.fields? ["exprs", "schema", "child"] content with
          | some [some exprs, some schema, some child] => do
              let exprs ← forms.list? (PlanExpr.ofItem? forms) exprs
              let schema ← Schema.ofItem? forms schema
              let child ← read? forms fuel child
              return .project exprs schema child
          | _ => none
      | some (4, some content) =>
          match forms.fields? ["child"] content with
          | some [some child] => (read? forms fuel child).map .distinct
          | _ => none
      | some (5, some content) =>
          match forms.fields? ["table", "child"] content with
          | some [some table, some child] => do
              let table ← forms.word? table
              let child ← read? forms fuel child
              return .fanOut ⟨table⟩ child
          | _ => none
      | some (6, some content) =>
          match forms.fields? ["keys", "child"] content with
          | some [some keys, some child] => do
              let keys ← forms.list? (SortKey.ofItem? forms) keys
              let child ← read? forms fuel child
              return .orderBy keys child
          | _ => none
      | some (7, some content) =>
          match forms.fields? ["limit", "offset", "child"] content with
          | some [some count, some skipped, some child] => do
              let count ← forms.word? count
              let skipped ← forms.word? skipped
              let child ← read? forms fuel child
              return .limit ⟨count, skipped⟩ child
          | _ => none
      | some (operator, some content) => readLeaf? forms operator content
      | _ => none

def ofItem? (forms : Forms := .derived) (item : Item) : Option Plan := read? forms (item.depth + 1) item

def encode (plan : Plan) (codec : Codec := .compact) (forms : Forms := .derived) : Bytes :=
  codec.write (plan.toItem forms)

def decode (bytes : Bytes) (codec : Codec := .compact) (forms : Forms := .derived) : Outcome Plan :=
  match (codec.read bytes).bind (ofItem? forms) with
  | some plan => .ok plan
  | none => .error (.serialization "not a stored plan")

end Plan

end ShardQuery
