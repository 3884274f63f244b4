import ShardQuery.Proofs.Cbor.Shapes
import ShardQuery.Stored.Value
/-!
Stored values, rows, schemas and fields. Main statement: each is read back from its stored form.
-/

set_option autoImplicit false

namespace ShardQuery

open Cbor Item

variable {forms : Forms} (lawful : forms.Lawful)

include lawful

namespace Value

theorem of_item_to_item (value : Value) : ofItem? forms (value.toItem forms) = some value := by
  cases value with
  | null =>
      rw [toItem, ofItem?, lawful.bare_at variants "Null" 0 (by decide) (by decide)]
      rfl
  | bool b =>
      rw [toItem, ofItem?, lawful.variant_at variants "Bool" _ 1 (by decide) (by decide)]
      change (forms.bool? (.bool b)).map _ = _
      rw [lawful.bool_read, Option.map_some]
  | int n =>
      rw [toItem, ofItem?, lawful.variant_at variants "Int" _ 2 (by decide) (by decide)]
      change (forms.signed? (ofSigned n)).map _ = _
      rw [lawful.signed_read, Option.map_some]
  | id n =>
      rw [toItem, ofItem?, lawful.variant_at variants "Id" _ 3 (by decide) (by decide)]
      change (forms.word? (ofWord n)).map _ = _
      rw [lawful.word_of_word, Option.map_some]
  | decimal unscaled scale =>
      have fields : forms.fields? ["value", "scale"]
          (forms.fields [("value", ofSigned unscaled), ("scale", .natural scale.toNat)]) = some _ :=
        lawful.fields_read ["value", "scale"] [ofSigned unscaled, .natural scale.toNat] (by decide) rfl
      rw [toItem, ofItem?, lawful.variant_at variants "Decimal" _ 4 (by decide) (by decide)]
      change decimalOfItem? forms (forms.fields [("value", ofSigned unscaled), ("scale", .natural scale.toNat)]) = _
      rw [decimalOfItem?, fields]
      change (forms.signed? (ofSigned unscaled)).bind _ = _
      rw [lawful.signed_read, Option.bind_some, lawful.byte_of_byte, Option.map_some]
  | string s =>
      rw [toItem, ofItem?, lawful.variant_at variants "String" _ 5 (by decide) (by decide)]
      change (forms.text? (.text s)).map _ = _
      rw [lawful.text_read, Option.map_some]
  | timestamp t =>
      rw [toItem, ofItem?, lawful.variant_at variants "Timestamp" _ 6 (by decide) (by decide)]
      change (forms.signed? (ofSigned t)).map _ = _
      rw [lawful.signed_read, Option.map_some]
  | idSet members =>
      rw [toItem, ofItem?, lawful.variant_at variants "IdSet" _ 7 (by decide) (by decide)]
      change (forms.list? forms.word? (ofList ofWord members)).map _ = _
      rw [lawful.list_of_list ofWord forms.word? members fun w _ => lawful.word_of_word w, Option.map_some]
  | stringSet members =>
      rw [toItem, ofItem?, lawful.variant_at variants "StringSet" _ 8 (by decide) (by decide)]
      change (forms.list? forms.text? (ofList .text members)).map _ = _
      rw [lawful.texts_of_texts, Option.map_some]

theorem to_item_readable (value : Value) : (value.toItem forms).Readable 2 := by
  cases value with
  | null =>
      rw [toItem, lawful.bare_written]
      exact readable_text _ 2
  | bool b => exact lawful.readable_variant _ _ 1 (readable_bool b 1)
  | int n => exact lawful.readable_variant _ _ 1 (readable_signed n 1)
  | id n => exact lawful.readable_variant _ _ 1 (readable_word n 1)
  | decimal unscaled scale =>
      have small : scale.toNat < 2 ^ 64 := Nat.lt_trans scale.toNat_lt (by decide)
      exact lawful.readable_variant _ _ 1
        (lawful.readable_fields _ 0 ⟨readable_signed unscaled 0, readable_natural _ 0 small⟩)
  | string s => exact lawful.readable_variant _ _ 1 (readable_text s 1)
  | timestamp t => exact lawful.readable_variant _ _ 1 (readable_signed t 1)
  | idSet members => exact lawful.readable_variant _ _ 1 (readable_list _ members 0 fun w _ => readable_word w 0)
  | stringSet members => exact lawful.readable_variant _ _ 1 (readable_list _ members 0 fun s _ => readable_text s 0)

end Value

namespace DataType

theorem of_item_to_item (type : DataType) : ofItem? forms (type.toItem forms) = some type := by
  cases type with
  | bool =>
      rw [toItem, ofItem?, lawful.bare_at variants "Bool" 0 (by decide) (by decide)]
      rfl
  | int =>
      rw [toItem, ofItem?, lawful.bare_at variants "Int" 1 (by decide) (by decide)]
      rfl
  | id =>
      rw [toItem, ofItem?, lawful.bare_at variants "Id" 2 (by decide) (by decide)]
      rfl
  | decimal scale =>
      rw [toItem, ofItem?, lawful.variant_at variants "Decimal" _ 3 (by decide) (by decide)]
      change (forms.byte? (.natural scale.toNat)).map DataType.decimal = _
      rw [lawful.byte_of_byte, Option.map_some]
  | string =>
      rw [toItem, ofItem?, lawful.bare_at variants "String" 4 (by decide) (by decide)]
      rfl
  | timestamp =>
      rw [toItem, ofItem?, lawful.bare_at variants "Timestamp" 5 (by decide) (by decide)]
      rfl
  | idSet =>
      rw [toItem, ofItem?, lawful.bare_at variants "IdSet" 6 (by decide) (by decide)]
      rfl
  | stringSet =>
      rw [toItem, ofItem?, lawful.bare_at variants "StringSet" 7 (by decide) (by decide)]
      rfl

theorem to_item_plain (type : DataType) : (type.toItem forms).Plain := by
  cases type with
  | decimal scale => exact lawful.plain_variant _ _ (Nat.lt_trans scale.toNat_lt (by decide))
  | _ => exact lawful.plain_bare _

end DataType

namespace Row

theorem of_item_to_item (row : Row) : ofItem? forms (row.toItem forms) = some row := by
  have fields : forms.fields? ["values"] (row.toItem forms) = some _ :=
    lawful.fields_read ["values"] [ofList (Value.toItem · forms) row.values] (by decide) rfl
  rw [ofItem?, fields]
  change (forms.list? (Value.ofItem? forms) (ofList (Value.toItem · forms) row.values)).map Row.mk = _
  rw [lawful.list_of_list _ _ row.values fun value _ => value.of_item_to_item lawful, Option.map_some]

theorem to_item_plain (row : Row) : (row.toItem forms).Plain :=
  lawful.plain_fields _ (plain_list _ _ fun value _ => (value.to_item_readable lawful).plain)

end Row

namespace Column

theorem of_item_to_item (column : Column) : ofItem? forms (column.toItem forms) = some column := by
  have fields : forms.fields? ["name", "dtype", "nullable", "relation"] (column.toItem forms) = some _ :=
    lawful.fields_read ["name", "dtype", "nullable", "relation"]
      [.text column.name, column.type.toItem forms, .bool column.nullable, ofOption .text column.relation] (by decide) rfl
  rw [ofItem?, fields]
  change (forms.text? (.text column.name)).bind _ = _
  rw [lawful.text_read, Option.bind_some, column.type.of_item_to_item lawful]
  change (forms.bool? (.bool column.nullable)).bind _ = _
  rw [lawful.bool_read, Option.bind_some]
  change (forms.optional? forms.text? (ofOption .text column.relation)).bind _ = _
  rw [lawful.text_of_option]
  rfl

theorem to_item_plain (column : Column) : (column.toItem forms).Plain :=
  lawful.plain_fields _ ⟨trivial, column.type.to_item_plain lawful, trivial, plain_option _ _ fun _ _ => trivial⟩

end Column

namespace Schema

theorem of_item_to_item (schema : Schema) : ofItem? forms (schema.toItem forms) = some schema := by
  have fields : forms.fields? ["columns"] (schema.toItem forms) = some _ :=
    lawful.fields_read ["columns"] [ofList (Column.toItem · forms) schema.columns] (by decide) rfl
  rw [ofItem?, fields]
  change (forms.list? (Column.ofItem? forms) (ofList (Column.toItem · forms) schema.columns)).map Schema.mk = _
  rw [lawful.list_of_list _ _ schema.columns fun column _ => column.of_item_to_item lawful, Option.map_some]

theorem to_item_plain (schema : Schema) : (schema.toItem forms).Plain :=
  lawful.plain_fields _ (plain_list _ _ fun column _ => column.to_item_plain lawful)

end Schema

namespace Field

theorem of_item_to_item (field : Field) : ofItem? forms (field.toItem forms) = some field := by
  have fields : forms.fields? ["name", "dtype", "nullable"] (field.toItem forms) = some _ :=
    lawful.fields_read ["name", "dtype", "nullable"]
      [.text field.name, field.type.toItem forms, .bool field.nullable] (by decide) rfl
  rw [ofItem?, fields]
  change (forms.text? (.text field.name)).bind _ = _
  rw [lawful.text_read, Option.bind_some, field.type.of_item_to_item lawful]
  change (forms.bool? (.bool field.nullable)).bind _ = _
  rw [lawful.bool_read]
  rfl

theorem to_item_plain (field : Field) : (field.toItem forms).Plain :=
  lawful.plain_fields _ ⟨trivial, field.type.to_item_plain lawful, trivial⟩

end Field

end ShardQuery
