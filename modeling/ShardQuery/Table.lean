import ShardQuery.Schema
import ShardQuery.SortedMap
/-!
What the catalog knows of a database, a table and a field.
-/

set_option autoImplicit false

namespace ShardQuery

-- The column that every table carries first: the id of the record.
def idColumn : String := "_id"

structure Field where
  name : String
  type : DataType
  nullable : Bool
deriving DecidableEq

structure Database where
  id : DatabaseId
  name : String
  options : SortedMap String String

def Database.named (name : String) (options : SortedMap String String) : Database :=
  ⟨.ofName name, name, options⟩

structure Table where
  name : String
  id : TableId
  database : DatabaseId
  fields : List Field
  description : Option String
deriving DecidableEq

namespace Table

def key (table : Table) : String := s!"tbl__{table.database.text}__{table.id.text}"

def field? (table : Table) (name : String) : Option Field := table.fields.find? (Text.same ·.name name)

-- The columns under a relation name. The record id is never null.
def schema (table : Table) (relation : String) : Schema :=
  ⟨table.fields.map fun field =>
    ⟨field.name, field.type, field.nullable && field.name != idColumn, some relation⟩⟩

end Table

end ShardQuery
