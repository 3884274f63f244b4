import ShardQuery.Proofs.Store.Content
import ShardQuery.Proofs.Store.Updated
/-!
Batches of updates that are imported one after the other. Main statement: the owners of each shard have taken the
updates that are its own, in their order, all else is as it was, and the log has an entry for each batch.
-/

set_option autoImplicit false

namespace ShardQuery

abbrev Batch := ShardId × List RowUpdate

-- What the batches have for one shard.
def Batch.updatesOf (batches : List Batch) (shard : ShardId) : List RowUpdate :=
  (batches.filter (·.1 == shard)).flatMap (·.2)

theorem Batch.updates_of_cons (batch : Batch) (batches : List Batch) (shard : ShardId) :
    updatesOf (batch :: batches) shard = (if batch.1 = shard then batch.2 else []) ++ updatesOf batches shard := by
  rw [updatesOf, List.filter_cons]
  by_cases own : batch.1 = shard
  · rw [if_pos own, if_pos (beq_iff_eq.mpr own), List.flatMap_cons, updatesOf]
  · rw [if_neg own, if_neg fun same => own (beq_iff_eq.mp same), List.nil_append, updatesOf]

-- Batches that are given by their shards, one for each.
theorem Batch.updates_of_grouped {batches : List Batch} (group : ShardId → List RowUpdate)
    (distinct : (batches.map (·.1)).Nodup) (grouped : ∀ batch ∈ batches, batch.2 = group batch.1) (shard : ShardId) :
    updatesOf batches shard = if shard ∈ batches.map (·.1) then group shard else [] := by
  induction batches with
  | nil => rfl
  | cons batch batches ih =>
      obtain ⟨own, grouped⟩ := List.forall_mem_cons.mp grouped
      obtain ⟨new, distinct⟩ := List.nodup_cons.mp distinct
      rw [updates_of_cons, ih distinct grouped, List.map_cons]
      by_cases here : batch.1 = shard
      · rw [if_pos here, own, here, if_neg (here ▸ new), if_pos List.mem_cons_self, List.append_nil]
      · rw [if_neg here, List.nil_append]
        exact if_congr (List.mem_cons.trans (or_iff_right (Ne.symm here))).symm rfl rfl

namespace Store

-- A store after imports into one table.
structure Imports (table : TableId) (batches : List Batch) (before after : Store) : Prop where
  shape : before.SameShape after
  shaped : after.Shaped
  desk : after.desk = before.desk
  log : after.log = before.log ++ batches.map fun batch => ⟨table, batch.1, batch.2⟩
  taken : ∀ (node : NodeId) (other : TableId) (shard : ShardId), records (after.partition node) other shard =
    if other = table ∧ node ∈ before.ring shard then
      (records (before.partition node) other shard).updateAll (Batch.updatesOf batches shard)
    else records (before.partition node) other shard

variable {store after : Store} {table : TableId} {batches : List Batch}

theorem imports_nothing (shaped : store.Shaped) (table : TableId) : Imports table [] store store where
  shape := ⟨rfl, rfl, rfl⟩
  shaped := shaped
  desk := rfl
  log := (List.append_nil _).symm
  taken _ _ _ := (ite_self _).symm

theorem outside_empty (shaped : store.Shaped) {node : NodeId} (outside : ¬ node.index.toNat < store.nodes.toNat) :
    store.partition node = .empty :=
  partition_outside store node (Nat.le_trans (Nat.le_of_eq shaped.partitioned) (Nat.le_of_not_lt outside))

-- One import, at any node.
theorem import_taken (shaped : store.Shaped) (batch : Batch)
    (imported : store.importRows table batch.1 batch.2 true = .ok after) (node : NodeId) (other : TableId)
    (shard : ShardId) : records (after.partition node) other shard =
      if other = table ∧ node ∈ store.ring shard then
        (records (store.partition node) other shard).updateAll (if batch.1 = shard then batch.2 else [])
      else records (store.partition node) other shard := by
  obtain ⟨-, shape, -, applied⟩ := import_effect store after ⟨table, batch.1, batch.2⟩ true shaped imported
  by_cases inside : node.index.toNat < store.nodes.toNat
  · rw [applied node inside]
    by_cases own : batch.1 = shard
    · subst own
      rw [if_pos rfl]
      by_cases owner : node ∈ store.ring batch.1
      · rw [if_pos owner, Partition.records_apply]
        by_cases same : other = table
        · rw [if_pos ⟨same, rfl⟩, if_pos ⟨same, owner⟩, same]
        · rw [if_neg fun both => same both.1, if_neg fun both => same both.1]
      · rw [if_neg owner, if_neg fun both => owner both.2]
    · have unmoved : records (if node ∈ store.ring batch.1 then (store.partition node).apply table batch.1 batch.2
          else store.partition node) other shard = records (store.partition node) other shard := by
        split
        · rw [Partition.records_apply, if_neg fun both => own both.2.symm]
        · rfl
      rw [if_neg own]
      exact unmoved.trans (ite_self _).symm
  · have outside : ¬ node.index.toNat < after.nodes.toNat := shape.nodes ▸ inside
    have shaped' := import_shaped store after ⟨table, batch.1, batch.2⟩ true shaped imported
    rw [outside_empty shaped inside, outside_empty shaped' outside,
      if_neg fun both => inside (ring_inside store shaped shard node both.2)]

theorem imports_next {first : Store} (shaped : store.Shaped) (batch : Batch)
    (imported : store.importRows table batch.1 batch.2 true = .ok first) (rest : Imports table batches first after) :
    Imports table (batch :: batches) store after := by
  obtain ⟨log, shape, -, -⟩ := import_effect store first ⟨table, batch.1, batch.2⟩ true shaped imported
  refine ⟨same_shape_trans _ _ _ shape rest.shape, rest.shaped,
    rest.desk.trans (import_desk ⟨table, batch.1, batch.2⟩ true imported), ?_, fun node other shard => ?_⟩
  · rw [rest.log, log, if_pos rfl, List.append_assoc]
    rfl
  · rw [rest.taken, import_taken shaped batch imported, ← same_shape_ring store first shape, Batch.updates_of_cons]
    by_cases here : other = table ∧ node ∈ store.ring shard
    · rw [if_pos here, if_pos here, if_pos here, Records.updateAll, Records.updateAll, Records.updateAll,
        List.foldl_append]
    · rw [if_neg here, if_neg here, if_neg here]

-- The records of a table as one node has them, and as the nodes have them that answer for their shards.
def contentOn (store : Store) (node : NodeId) (table : TableId) : ShardContent :=
  fun id => store.contentAt node table (shardOf id store.width) id

def tableContent (store : Store) (table : TableId) : ShardContent :=
  fun id => (store.held? table id).map SortedMap.get?

theorem table_content_on {node : NodeId} {id : RecordId} (primary : store.primary? (shardOf id store.width) = some node) :
    store.tableContent table id = store.contentOn node table id := by
  rw [tableContent, held_at primary]
  rfl

theorem primary_same_shape (shape : store.SameShape after) (shard : ShardId) :
    after.primary? shard = store.primary? shard := by
  rw [primary?, primary?, same_shape_ring store after shape]

section Imported

variable (imports : Imports table batches store after)

include imports

theorem imports_content_at {node : NodeId} {shard : ShardId} (owner : node ∈ store.ring shard) :
    after.contentAt node table shard =
      (Batch.updatesOf batches shard).foldl ShardContent.taken (store.contentAt node table shard) := by
  rw [contentAt, imports.taken, if_pos ⟨rfl, owner⟩, Records.content_update_all, contentAt]

theorem imports_spare {node : NodeId} {other : TableId} {shard : ShardId}
    (elsewhere : other = table → node ∈ store.ring shard → Batch.updatesOf batches shard = []) :
    records (after.partition node) other shard = records (store.partition node) other shard := by
  rw [imports.taken]
  split
  · rename_i here
    rw [elsewhere here.1 here.2]
    rfl
  · rfl

end Imported

end Store

end ShardQuery
