import ShardQuery.Error
import ShardQuery.Row
import ShardQuery.Schema
/-!
Results of queries and their text: a heading and a line for each row, in columns of one width.
-/

set_option autoImplicit false

namespace ShardQuery

structure QueryResult where
  schema : Schema
  rows : List Row
  warnings : List String

namespace QueryResult

-- The longest column name in bytes, or eight without columns, and a gap of two.
def width (result : QueryResult) : Nat :=
  match (result.schema.columns.map (·.name.utf8ByteSize)).max? with
  | some longest => longest + 2
  | none => 10

def line (width : Nat) (cells : List String) : String :=
  String.join (cells.map (Text.padRight width)) ++ "\n"

def table (result : QueryResult) : String :=
  line result.width (result.schema.columns.map (·.name)) ++
    String.join (result.rows.map fun row => line result.width (row.values.map (·.text)))

def widest : Nat := 65535

def text (result : QueryResult) : Outcome String :=
  if result.width ≤ widest then .ok result.table else .error (.brokeOff .columnTooWide)

end QueryResult

end ShardQuery
