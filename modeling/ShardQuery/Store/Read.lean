import ShardQuery.Store.Basic
/-!
Reading the store: the shards of a table, their rows, and which node serves which shard.
-/

set_option autoImplicit false

namespace ShardQuery.Store

def shards (store : Store) (table : TableId) : List ShardId :=
  let held := store.partitions.flatMap fun partition =>
    (partition.keys.filter (·.table == table)).map (·.shard)
  (held.mergeSort (· ≤ ·)).eraseReps

def fieldValue (id : RecordId) (record : Record) (field : String) : Value :=
  if field == idColumn then .id id else (record.get? field).getD .null

def recordRow (fields : List String) (id : RecordId) (record : Record) : Row :=
  ⟨fields.map fun field => fieldValue id record (Text.lower field)⟩

-- The rows of a shard in ascending order of record id, as the given node or the primary has them.
def readShard (store : Store) (node : Option NodeId) (table : TableId) (shard : ShardId)
    (fields : List String) : Outcome (List Row) := do
  let owners ← store.owners shard
  let node ← (match node, owners.head? with
    | some node, _ => if owners.contains node then .ok node else .error (notHeld node shard)
    | none, some primary => .ok primary
    | none, none => .error (.brokeOff .nothingThere) : Outcome NodeId)
  let found := records (store.partition node) table shard
  return found.entries.map fun entry => recordRow fields entry.1 entry.2

-- Every shard under its primary, in node order; nodes without a shard are left out.
def placement (store : Store) (shards : List ShardId) : Outcome (List ClusterNode) := do
  let primaries ← shards.mapM fun shard => return (shard, (← store.owners shard).head?)
  return (List.range store.nodes.toNat).filterMap fun i =>
    let node : NodeId := ⟨UInt32.ofNat i⟩
    let own := (primaries.filter (·.2 == some node)).map (·.1)
    if own.isEmpty then none else some ⟨node, own⟩

end ShardQuery.Store
