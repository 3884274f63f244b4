import ShardQuery.Row
import ShardQuery.Error
import ShardQuery.Description
/-!
Columns and schemas: looking a name up, and checking a row against its columns.
-/

set_option autoImplicit false

namespace ShardQuery

structure Column where
  name : String
  type : DataType
  nullable : Bool
  relation : Option String
deriving DecidableEq

def Column.plain (name : String) (type : DataType) : Column := ⟨name, type, true, none⟩

structure Schema where
  columns : List Column
deriving DecidableEq

namespace Schema

def empty : Schema := ⟨[]⟩

def size (schema : Schema) : Nat := schema.columns.length

def get? (schema : Schema) (i : Nat) : Option Column := schema.columns[i]?

def append (a b : Schema) : Schema := ⟨a.columns ++ b.columns⟩

-- Columns from names and types; the longer list is cut.
def ofNames (names : List String) (types : List DataType) : Schema :=
  ⟨List.zipWith Column.plain names types⟩

-- A reference as it is written, with its qualifier.
def referenceText (qualifier : Option String) (name : String) : String :=
  match qualifier with
  | some q => s!"{q}.{name}"
  | none => name

-- Whether a reference can mean the column: the names agree, and the qualifier, when there is one, is the
-- column's relation.
def matched (qualifier : Option String) (name : String) (column : Column) : Bool :=
  Text.same column.name name &&
    match qualifier, column.relation with
    | none, _ => true
    | some q, some relation => Text.same relation q
    | some _, none => false

def candidates (schema : Schema) (qualifier : Option String) (name : String) : List Nat :=
  (schema.columns.zipIdx.filter fun entry => matched qualifier name entry.1).map (·.2)

def resolve (schema : Schema) (qualifier : Option String) (name : String) : Outcome Nat :=
  match schema.candidates qualifier name with
  | [i] => .ok i
  | [] => .error (.unknownColumn (referenceText qualifier name))
  | _ :: _ :: _ => .error (.ambiguousColumn (referenceText qualifier name))

def checkValue (v : Value) (column : Column) : Outcome Unit :=
  match v.dataType? with
  | none =>
      if column.nullable then .ok ()
      else .error (.typeMismatch s!"null value for non-nullable column '{column.name}'")
  | some type =>
      if type.comparable column.type then .ok ()
      else .error (.typeMismatch
        s!"value of type {type.text} in column '{column.name}' of type {column.type.text}")

-- A row fits when it has a value for each column, of a type that compares with the column's.
def checkRow (schema : Schema) (row : Row) : Outcome Unit :=
  if row.size = schema.size then
    (row.values.zip schema.columns).forM fun entry => checkValue entry.1 entry.2
  else .error (.internal s!"row has {row.size} values, schema has {schema.size} columns")

def describe (schema : Schema) : Description :=
  .list (schema.columns.map fun column => .record [
    ("name", .text column.name), ("type", .text column.type.text), ("nullable", .flag column.nullable)])

end Schema

end ShardQuery
