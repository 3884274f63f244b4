import ShardQuery.Proofs.Stored.Value
import ShardQuery.Stored.Log
/-!
The stored write log. Main statement: a log whose stored form can be counted in 64 bits is read back as it was.
-/

set_option autoImplicit false

namespace ShardQuery

open Cbor Item

section Items

variable {forms : Forms} (lawful : forms.Lawful)

include lawful

namespace RowUpdate

theorem of_item_set_item (field : String × Value) :
    forms.pair? forms.text? (Value.ofItem? forms) (setItem forms field) = some field := by
  rw [Forms.pair?, setItem, lawful.items_read]
  change (forms.text? (.text field.1)).bind _ = _
  rw [lawful.text_read, Option.bind_some, Value.of_item_to_item lawful, Option.map_some]

theorem of_item_to_item (update : RowUpdate) : ofItem? forms (update.toItem forms) = some update := by
  have fields : forms.fields? ["id", "clear", "set"] (update.toItem forms) = some _ :=
    lawful.fields_read ["id", "clear", "set"]
      [ofWord update.id, ofList .text update.clear, ofList (setItem forms) update.set] (by decide) rfl
  rw [ofItem?, fields]
  change (forms.word? _).bind _ = _
  rw [lawful.word_of_word, Option.bind_some, lawful.texts_of_texts]
  change (forms.list? _ (ofList (setItem forms) update.set)).bind _ = _
  rw [lawful.list_of_list (setItem forms) _ update.set fun field _ => of_item_set_item lawful field]
  rfl

theorem set_item_readable (field : String × Value) : (setItem forms field).Readable 3 := by
  have value := field.2.to_item_readable lawful
  exact ⟨⟨trivial, value.plain, trivial⟩,
    Nat.succ_le_succ (Nat.max_le.mpr ⟨Nat.zero_le _, Nat.max_le.mpr ⟨value.nested, Nat.zero_le _⟩⟩)⟩

theorem to_item_readable (update : RowUpdate) : (update.toItem forms).Readable 5 := by
  have cleared := readable_list .text update.clear 3 fun s _ => readable_text s 3
  have changed := readable_list (setItem forms) update.set 3 fun field _ => set_item_readable lawful field
  exact lawful.readable_fields _ 4 ⟨readable_word _ 4, cleared, changed⟩

end RowUpdate

namespace LogEntry

theorem of_item_to_item (entry : LogEntry) : ofItem? forms (entry.toItem forms) = some entry := by
  have fields : forms.fields? ["table", "shard", "updates"] (entry.toItem forms) = some _ :=
    lawful.fields_read ["table", "shard", "updates"]
      [ofWord entry.table.code, ofWord entry.shard, ofList (RowUpdate.toItem · forms) entry.updates] (by decide) rfl
  rw [ofItem?, fields]
  change (forms.word? _).bind _ = _
  rw [lawful.word_of_word, Option.bind_some, lawful.word_of_word]
  change (forms.list? _ (ofList (RowUpdate.toItem · forms) entry.updates)).bind _ = _
  rw [lawful.list_of_list _ _ entry.updates fun update _ => update.of_item_to_item lawful]
  rfl

theorem to_item_readable (entry : LogEntry) : (entry.toItem forms).Readable 7 := by
  have listed := readable_list (RowUpdate.toItem · forms) entry.updates 5 fun update _ => update.to_item_readable lawful
  exact lawful.readable_fields _ 6 ⟨readable_word _ 6, readable_word _ 6, listed⟩

end LogEntry

end Items

theorem decode_encode_log {codec : Codec} {forms : Forms} (coded : codec.Lawful) (formed : forms.Lawful)
    (log : List LogEntry) (counted : (encodeLog log codec forms).length < 2 ^ 64) :
    decodeLog (encodeLog log codec forms) codec forms = .ok log := by
  have readable := readable_list (LogEntry.toItem · forms) log 7 fun entry _ => entry.to_item_readable formed
  rw [decodeLog, encodeLog, coded.read_written readable.plain counted (Nat.le_trans readable.nested (by decide)),
    Option.bind_some, formed.list_of_list _ _ log fun entry _ => entry.of_item_to_item formed]

end ShardQuery
