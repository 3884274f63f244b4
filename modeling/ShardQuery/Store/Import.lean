import ShardQuery.Store.Basic
/-!
Changes to the store. An import is applied on every owner of its shard and then logged; dropping a
table or a field edits the log as well, so that the log still leads to the records.
-/

set_option autoImplicit false

namespace ShardQuery

namespace RowUpdate

-- Whether the whole record goes: its id is among the cleared fields.
def removesRecord (update : RowUpdate) : Bool := update.clear.any (Text.same · idColumn)

def forget (field : String) (update : RowUpdate) : RowUpdate :=
  { update with set := update.set.filter fun item => Text.lower item.1 != field }

end RowUpdate

def LogEntry.forget (field : String) (entry : LogEntry) : LogEntry :=
  { entry with updates := entry.updates.map (RowUpdate.forget field) }

namespace Record

def clearFields (record : Record) (names : List String) : Record :=
  names.foldl (fun record name =>
    if Text.same name idColumn then record else record.erase (Text.lower name)) record

-- Null removes a field, and the id is no field of the record.
def setField (record : Record) (field : String × Value) : Record :=
  if Text.same field.1 idColumn then record
  else if field.2.isNull then record.erase (Text.lower field.1)
  else record.insert (Text.lower field.1) field.2

def setFields (record : Record) (fields : List (String × Value)) : Record := fields.foldl setField record

end Record

namespace Records

-- One update. A record that is not there yet is created empty before its fields are set.
def update (records : Records) (change : RowUpdate) : Records :=
  match records.get? change.id with
  | none => records.insert change.id (Record.setFields .empty change.set)
  | some record =>
      if change.removesRecord then
        if change.set.isEmpty then records.erase change.id
        else records.insert change.id (Record.setFields .empty change.set)
      else records.insert change.id (Record.setFields (Record.clearFields record change.clear) change.set)

def updateAll (records : Records) (changes : List RowUpdate) : Records := changes.foldl update records

end Records

namespace Partition

-- The updates on one shard; a shard without records is not kept.
def apply (partition : Partition) (table : TableId) (shard : ShardId) (changes : List RowUpdate) :
    Partition :=
  let updated := Records.updateAll (Store.records partition table shard) changes
  if updated.isEmpty then partition.erase ⟨table, shard⟩ else partition.insert ⟨table, shard⟩ updated

def deleteTable (partition : Partition) (table : TableId) : Partition :=
  partition.filter fun key _ => key.table != table

def deleteField (partition : Partition) (table : TableId) (field : String) : Partition :=
  partition.mapItems fun key records =>
    if key.table == table then records.mapItems fun _ record => record.erase field else records

end Partition

namespace Store

-- One atomic step of an import: the updates on one node.
def applyOn (store : Store) (node : NodeId) (table : TableId) (shard : ShardId)
    (changes : List RowUpdate) : Store :=
  { store with partitions :=
      store.partitions.modify node.index.toNat (Partition.apply · table shard changes) }

def record (store : Store) (entry : LogEntry) : Store := { store with log := store.log ++ [entry] }

def applyOnAll (store : Store) (nodes : List NodeId) (table : TableId) (shard : ShardId)
    (changes : List RowUpdate) : Store :=
  nodes.foldl (fun store node => store.applyOn node table shard changes) store

def misplaced? (store : Store) (shard : ShardId) (changes : List RowUpdate) : Option RowUpdate :=
  changes.find? fun change => shardOf change.id store.width != shard

def checkPlaced (store : Store) (shard : ShardId) (changes : List RowUpdate) : Outcome Unit :=
  match store.misplaced? shard changes with
  | some change => .error (.execution s!"record {change.id.toNat} does not belong to shard {shard.toNat}")
  | none => .ok ()

-- Imports on every owner of the shard; `logged` tells whether the log keeps the import.
def importRows (store : Store) (table : TableId) (shard : ShardId) (changes : List RowUpdate)
    (logged : Bool) : Outcome Store := do
  store.checkPlaced shard changes
  let imported := store.applyOnAll (← store.owners shard) table shard changes
  return if logged then imported.record ⟨table, shard, changes⟩ else imported

-- Takes an import that another node forwards: it is applied here only and not logged.
def importForwarded (store : Store) (node : NodeId) (table : TableId) (shard : ShardId)
    (changes : List RowUpdate) : Outcome Store := do
  store.checkPlaced shard changes
  if (← store.owners shard).contains node then return store.applyOn node table shard changes
  else throw (notHeld node shard)

def deleteTable (store : Store) (table : TableId) : Store :=
  { store with
    partitions := store.partitions.map (Partition.deleteTable · table)
    log := store.log.filter (·.table != table) }

def deleteField (store : Store) (table : TableId) (name : String) : Store :=
  let field := Text.lower name
  { store with
    partitions := store.partitions.map (Partition.deleteField · table field)
    log := store.log.map fun entry => if entry.table == table then LogEntry.forget field entry else entry }

-- Imports a logged entry again; it stays part of the log.
def replayEntry (store : Store) (entry : LogEntry) : Outcome Store := do
  let imported ← store.importRows entry.table entry.shard entry.updates false
  return imported.record entry

-- Replays entries up to the first that is refused, and gives the store that far.
def replay (store : Store) : List LogEntry → Outcome Unit × Store
  | [] => (.ok (), store)
  | entry :: rest =>
      match store.replayEntry entry with
      | .ok store => replay store rest
      | .error e => (.error e, store)

end Store

end ShardQuery
