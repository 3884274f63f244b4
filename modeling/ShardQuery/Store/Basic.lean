import ShardQuery.Table
import ShardQuery.Cluster
import ShardQuery.Transaction.Desk
/-!
The sharded row store. A shard is kept on `replicas` consecutive nodes, the primary being the shard's
number modulo the number of nodes, and each node keeps its shards in a partition of its own.
-/

set_option autoImplicit false

namespace ShardQuery

-- The non-null fields of one record under their lowercased names.
abbrev Record := SortedMap String Value

abbrev Records := SortedMap RecordId Record

structure ShardKey where
  table : TableId
  shard : ShardId
deriving DecidableEq

namespace ShardKey

instance : Ord ShardKey := ⟨compareLex (compareOn table) (compareOn shard)⟩
instance : Std.TransOrd ShardKey :=
  inferInstanceAs (Std.TransCmp (compareLex (compareOn table) (compareOn shard)))

instance : Std.LawfulEqOrd ShardKey where
  eq_of_compare {a b} same := by
    have parts := Ordering.then_eq_eq.mp same
    cases a
    cases b
    exact congr (congrArg ShardKey.mk (Std.LawfulEqCmp.eq_of_compare parts.1))
      (Std.LawfulEqCmp.eq_of_compare parts.2)

end ShardKey

abbrev Partition := SortedMap ShardKey Records

-- A change to one record: first the named fields are cleared, then the given ones are set.
structure RowUpdate where
  id : RecordId
  clear : List String
  set : List (String × Value)

structure LogEntry where
  table : TableId
  shard : ShardId
  updates : List RowUpdate

structure Store where
  nodes : UInt32
  replicas : UInt32
  -- Record ids that one shard covers.
  width : UInt64
  partitions : List Partition
  log : List LogEntry
  desk : TransactionDesk

namespace Store

-- At least one node, one replica and one id for each shard; no more replicas than nodes.
def make (nodes : UInt32) (replicas : Nat) (width : UInt64) (fresh : UInt64) : Store :=
  let nodes := if nodes = 0 then 1 else nodes
  let copies := UInt32.ofNat (max replicas 1)
  { nodes
    replicas := if copies ≤ nodes then copies else nodes
    width := if width = 0 then 1 else width
    partitions := List.replicate nodes.toNat .empty
    log := []
    desk := .opening fresh }

-- As many consecutive nodes as there are replicas, the first being the shard's number modulo the number of
-- nodes.
def ring (store : Store) (shard : ShardId) : List NodeId :=
  (List.range store.replicas.toNat).map fun k =>
    ⟨UInt32.ofNat ((shard.toNat + k) % store.nodes.toNat)⟩

-- The nodes that hold a shard, the primary first. They are counted on from the shard's number, which must leave
-- room for that in 64 bits.
def owners (store : Store) (shard : ShardId) : Outcome (List NodeId) :=
  if shard.toNat + (store.replicas.toNat - 1) < 2 ^ 64 then .ok (store.ring shard)
  else .error (.brokeOff .sumTooLarge)

def partition (store : Store) (node : NodeId) : Partition :=
  (store.partitions[node.index.toNat]?).getD .empty

def records (partition : Partition) (table : TableId) (shard : ShardId) : Records :=
  (partition.get? ⟨table, shard⟩).getD .empty

def notHeld (node : NodeId) (shard : ShardId) : EngineError :=
  .execution s!"{node.text} does not hold shard {shard.toNat}"

end Store

end ShardQuery
