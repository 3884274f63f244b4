import ShardQuery.Cbor.Shape
import ShardQuery.Table
/-!
The stored forms of values, rows, schemas and fields, over the forms that declared types take.
-/

set_option autoImplicit false

namespace ShardQuery

open Cbor

namespace DataType

def variants : List String := ["Bool", "Int", "Id", "Decimal", "String", "Timestamp", "IdSet", "StringSet"]

def toItem (type : DataType) (forms : Forms := .derived) : Item :=
  match type with
  | .bool => forms.bare "Bool"
  | .int => forms.bare "Int"
  | .id => forms.bare "Id"
  | .decimal scale => forms.variant "Decimal" (.natural scale.toNat)
  | .string => forms.bare "String"
  | .timestamp => forms.bare "Timestamp"
  | .idSet => forms.bare "IdSet"
  | .stringSet => forms.bare "StringSet"

def ofItem? (forms : Forms := .derived) (item : Item) : Option DataType :=
  match forms.variant? variants item with
  | some (0, content) => (forms.bare? content).map fun _ => .bool
  | some (1, content) => (forms.bare? content).map fun _ => .int
  | some (2, content) => (forms.bare? content).map fun _ => .id
  | some (3, some content) => (forms.byte? content).map .decimal
  | some (4, content) => (forms.bare? content).map fun _ => .string
  | some (5, content) => (forms.bare? content).map fun _ => .timestamp
  | some (6, content) => (forms.bare? content).map fun _ => .idSet
  | some (7, content) => (forms.bare? content).map fun _ => .stringSet
  | _ => none

end DataType

namespace Value

def variants : List String :=
  ["Null", "Bool", "Int", "Id", "Decimal", "String", "Timestamp", "IdSet", "StringSet"]

def toItem (value : Value) (forms : Forms := .derived) : Item :=
  match value with
  | .null => forms.bare "Null"
  | .bool b => forms.variant "Bool" (.bool b)
  | .int n => forms.variant "Int" (.ofSigned n)
  | .id n => forms.variant "Id" (.ofWord n)
  | .decimal unscaled scale =>
      forms.variant "Decimal" (forms.fields [("value", .ofSigned unscaled), ("scale", .natural scale.toNat)])
  | .string s => forms.variant "String" (.text s)
  | .timestamp t => forms.variant "Timestamp" (.ofSigned t)
  | .idSet members => forms.variant "IdSet" (.ofList .ofWord members)
  | .stringSet members => forms.variant "StringSet" (.ofList .text members)

def decimalOfItem? (forms : Forms) (item : Item) : Option Value :=
  match forms.fields? ["value", "scale"] item with
  | some [some unscaled, some scale] =>
      (forms.signed? unscaled).bind fun unscaled => (forms.byte? scale).map fun scale =>
        .decimal unscaled scale
  | _ => none

def ofItem? (forms : Forms := .derived) (item : Item) : Option Value :=
  match forms.variant? variants item with
  | some (0, content) => (forms.bare? content).map fun _ => .null
  | some (1, some content) => (forms.bool? content).map .bool
  | some (2, some content) => (forms.signed? content).map .int
  | some (3, some content) => (forms.word? content).map .id
  | some (4, some content) => decimalOfItem? forms content
  | some (5, some content) => (forms.text? content).map .string
  | some (6, some content) => (forms.signed? content).map .timestamp
  | some (7, some content) => (forms.list? forms.word? content).map .idSet
  | some (8, some content) => (forms.list? forms.text? content).map .stringSet
  | _ => none

end Value

namespace Row

def toItem (row : Row) (forms : Forms := .derived) : Item :=
  forms.fields [("values", .ofList (Value.toItem · forms) row.values)]

def ofItem? (forms : Forms := .derived) (item : Item) : Option Row :=
  match forms.fields? ["values"] item with
  | some [some values] => (forms.list? (Value.ofItem? forms) values).map Row.mk
  | _ => none

end Row

namespace Column

def toItem (column : Column) (forms : Forms := .derived) : Item :=
  forms.fields [("name", .text column.name), ("dtype", column.type.toItem forms), ("nullable", .bool column.nullable),
    ("relation", .ofOption .text column.relation)]

def ofItem? (forms : Forms := .derived) (item : Item) : Option Column :=
  match forms.fields? ["name", "dtype", "nullable", "relation"] item with
  | some [some name, some type, some nullable, relation] => do
      let name ← forms.text? name
      let type ← DataType.ofItem? forms type
      let nullable ← forms.bool? nullable
      let relation ← forms.optional? forms.text? (relation.getD .null)
      return ⟨name, type, nullable, relation⟩
  | _ => none

end Column

namespace Schema

def toItem (schema : Schema) (forms : Forms := .derived) : Item :=
  forms.fields [("columns", .ofList (Column.toItem · forms) schema.columns)]

def ofItem? (forms : Forms := .derived) (item : Item) : Option Schema :=
  match forms.fields? ["columns"] item with
  | some [some columns] => (forms.list? (Column.ofItem? forms) columns).map Schema.mk
  | _ => none

end Schema

namespace Field

def toItem (field : Field) (forms : Forms := .derived) : Item :=
  forms.fields [("name", .text field.name), ("dtype", field.type.toItem forms), ("nullable", .bool field.nullable)]

def ofItem? (forms : Forms := .derived) (item : Item) : Option Field :=
  match forms.fields? ["name", "dtype", "nullable"] item with
  | some [some name, some type, some nullable] => do
      let name ← forms.text? name
      let type ← DataType.ofItem? forms type
      let nullable ← forms.bool? nullable
      return ⟨name, type, nullable⟩
  | _ => none

end Field

end ShardQuery
