import ShardQuery.Cbor.Codec
import ShardQuery.Stored.Value
import ShardQuery.Store.Import
/-!
The stored form of the write log, and stores that begin with a stored log.
-/

set_option autoImplicit false

namespace ShardQuery

open Cbor

namespace RowUpdate

def setItem (forms : Forms) (field : String × Value) : Item := .array [.text field.1, field.2.toItem forms]

def toItem (update : RowUpdate) (forms : Forms := .derived) : Item :=
  forms.fields [("id", .ofWord update.id), ("clear", .ofList .text update.clear),
    ("set", .ofList (setItem forms) update.set)]

def ofItem? (forms : Forms := .derived) (item : Item) : Option RowUpdate :=
  match forms.fields? ["id", "clear", "set"] item with
  | some [some id, some clear, some set] => do
      let id ← forms.word? id
      let clear ← forms.list? forms.text? clear
      let set ← forms.list? (forms.pair? forms.text? (Value.ofItem? forms)) set
      return ⟨id, clear, set⟩
  | _ => none

end RowUpdate

namespace LogEntry

def toItem (entry : LogEntry) (forms : Forms := .derived) : Item :=
  forms.fields [("table", .ofWord entry.table.code), ("shard", .ofWord entry.shard),
    ("updates", .ofList (RowUpdate.toItem · forms) entry.updates)]

def ofItem? (forms : Forms := .derived) (item : Item) : Option LogEntry :=
  match forms.fields? ["table", "shard", "updates"] item with
  | some [some table, some shard, some updates] => do
      let table ← forms.word? table
      let shard ← forms.word? shard
      let updates ← forms.list? (RowUpdate.ofItem? forms) updates
      return ⟨⟨table⟩, shard, updates⟩
  | _ => none

end LogEntry

def encodeLog (log : List LogEntry) (codec : Codec := .compact) (forms : Forms := .derived) : Bytes :=
  codec.write (Item.ofList (LogEntry.toItem · forms) log)

def decodeLog (bytes : Bytes) (codec : Codec := .compact) (forms : Forms := .derived) : Outcome (List LogEntry) :=
  match (codec.read bytes).bind (forms.list? (LogEntry.ofItem? forms)) with
  | some log => .ok log
  | none => .error (.serialization "not a stored log")

-- The store after the replay of a stored log; a log that cannot be read or replayed gives none.
def Store.restore (store : Store) (stored : Bytes) (codec : Codec := .compact) (forms : Forms := .derived) :
    Outcome Store := do
  let log ← decodeLog stored codec forms
  let (outcome, restored) := store.replay log
  outcome.map fun _ => restored

end ShardQuery
