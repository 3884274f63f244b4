import ShardQuery.Error
/-!
Nodes of a cluster and the shards they serve.
-/

set_option autoImplicit false

namespace ShardQuery

structure ClusterNode where
  id : NodeId
  shards : List ShardId
deriving DecidableEq

def ClusterNode.serves (node : ClusterNode) (shard : ShardId) : Bool := node.shards.contains shard

-- The shard that holds a record: each shard covers `width` consecutive ids.
def shardOf (id : RecordId) (width : UInt64) : ShardId := id / width

-- Where shards cover no ids, a record has no shard.
def locate (id : RecordId) (width : UInt64) : Outcome ShardId :=
  if width = 0 then .error (.brokeOff .divisionByZero) else .ok (shardOf id width)

-- Deals shards out to `nodes` nodes by their number; with no node there is nobody to deal to.
def roundRobin (nodes : UInt32) (shards : List ShardId) : List ClusterNode :=
  (List.range nodes.toNat).map fun i =>
    ⟨⟨UInt32.ofNat i⟩, shards.filter fun shard => shard.toNat % nodes.toNat == i⟩

end ShardQuery
