import ShardQuery.Proofs.Store.Placement
import ShardQuery.Proofs.Store.Upkeep
/-!
The records of a store, wherever they lie. Main statements: what each change makes of the record under an id does not
depend on how records are placed, and neither do the rows of a table, up to their order.
-/

set_option autoImplicit false

namespace ShardQuery

namespace Store

-- The record under an id, as the node has it that answers for its shard.
def held? (store : Store) (table : TableId) (id : RecordId) : Option Record :=
  (store.primary? (shardOf id store.width)).bind fun node =>
    (records (store.partition node) table (shardOf id store.width)).get? id

variable {store : Store} {table : TableId} {id : RecordId}

theorem primary_some (copies : 0 < store.replicas.toNat) (shard : ShardId) :
    ∃ primary, store.primary? shard = some primary ∧ primary ∈ store.ring shard := by
  obtain ⟨primary, others, owners⟩ := ring_primary copies shard
  exact ⟨primary, primary_first owners, owners ▸ List.mem_cons_self⟩

theorem held_at {node : NodeId} (primary : store.primary? (shardOf id store.width) = some node) :
    store.held? table id = (records (store.partition node) table (shardOf id store.width)).get? id := by
  rw [held?, primary]
  rfl

theorem make_held (nodes : UInt32) (replicas : Nat) (width fresh : UInt64) :
    (make nodes replicas width fresh).held? table id = none := by
  rw [held?]
  cases primary? (make nodes replicas width fresh) (shardOf id (make nodes replicas width fresh).width) with
  | none => rfl
  | some node =>
      have blank : (make nodes replicas width fresh).partition node = .empty := replicated_empty _ node.index.toNat
      rw [Option.bind_some, blank]
      rfl

section Changes

variable {after : Store}

-- An import updates each record of its table by the updates that are its own.
theorem import_held (entry : LogEntry) (logged : Bool) (shaped : store.Shaped) (copies : 0 < store.replicas.toNat)
    (imported : store.importRows entry.table entry.shard entry.updates logged = .ok after) :
    after.held? table id = if table = entry.table then
      Records.recordAfter (store.held? table id) (entry.updates.filter (·.id == id)) else store.held? table id := by
  obtain ⟨-, shape, -⟩ := import_effect store after entry logged shaped imported
  obtain ⟨primary, answers, owner⟩ := primary_some copies (shardOf id store.width)
  have answers' : after.primary? (shardOf id after.width) = some primary := by
    rw [primary?, ← same_shape_ring store after shape, ← shape.width]
    exact answers
  rw [held_at answers', held_at answers, ← shape.width]
  exact import_record after entry logged shaped imported table id primary owner

theorem import_desk (entry : LogEntry) (logged : Bool)
    (imported : store.importRows entry.table entry.shard entry.updates logged = .ok after) : after.desk = store.desk := by
  obtain ⟨_, -, taken⟩ := ok_of_bind imported
  obtain ⟨owners, -, taken⟩ := ok_of_bind taken
  obtain ⟨partitions, whole, -⟩ := apply_on_all_shape store owners entry.table entry.shard entry.updates
  rw [← Except.ok.inj taken, whole]
  cases logged with
  | true => rfl
  | false => rfl

theorem delete_table_held (deleted : TableId) :
    (store.deleteTable deleted).held? table id = if table = deleted then none else store.held? table id := by
  rw [held?, held?]
  change Option.bind (store.primary? (shardOf id store.width)) (fun node =>
    (records ((store.deleteTable deleted).partition node) table (shardOf id store.width)).get? id) = _
  cases store.primary? (shardOf id store.width) with
  | none => exact (ite_self none).symm
  | some node =>
      rw [Option.bind_some, Option.bind_some, delete_table_partition, Partition.records_delete_table]
      split
      · rfl
      · rfl

theorem delete_field_held (deleted : TableId) (name : String) :
    (store.deleteField deleted name).held? table id =
      if table = deleted then (store.held? table id).map (·.erase (Text.lower name)) else store.held? table id := by
  rw [held?, held?]
  change Option.bind (store.primary? (shardOf id store.width)) (fun node =>
    (records ((store.deleteField deleted name).partition node) table (shardOf id store.width)).get? id) = _
  cases store.primary? (shardOf id store.width) with
  | none => exact (ite_self none).symm
  | some node =>
      rw [Option.bind_some, Option.bind_some, delete_field_partition, Partition.records_delete_field]
      split
      · rw [SortedMap.get?_mapItems]
      · rfl

end Changes

theorem held_present_iff (orderly : store.Orderly) : store.Has table id ↔ (store.held? table id).isSome = true := by
  constructor
  · intro ⟨partition, among, shard, there⟩
    obtain ⟨node, -, rfl⟩ := (partition_among orderly.shaped partition).mp among
    obtain ⟨owner, -, rfl⟩ := orderly.placed node table shard id there
    obtain ⟨primary, others, owners⟩ := List.exists_cons_of_ne_nil (List.ne_nil_of_mem owner)
    have answers := primary_first owners
    rw [held_at answers, ← orderly.copied table _ node owner primary (primary_owner answers)]
    exact there
  · intro there
    cases answers : store.primary? (shardOf id store.width) with
    | none =>
        rw [held?, answers] at there
        cases there
    | some primary =>
        rw [held_at answers] at there
        have inside := ring_inside store orderly.shaped _ primary (primary_owner answers)
        exact ⟨store.partition primary, (partition_among orderly.shaped _).mpr ⟨primary, inside, rfl⟩, _, there⟩

-- A table has shards as soon as it has a record.
theorem shards_empty_iff (orderly : store.Orderly) :
    (store.shards table).isEmpty = true ↔ ∀ id, store.held? table id = none := by
  rw [List.isEmpty_iff, List.eq_nil_iff_forall_not_mem]
  constructor
  · intro none id
    refine Option.not_isSome_iff_eq_none.mp fun there => none (shardOf id store.width) ?_
    exact (listed_has orderly table _).mpr ⟨id, (held_present_iff orderly).mpr there, rfl⟩
  · intro none shard listed
    obtain ⟨id, has, -⟩ := (listed_has orderly table shard).mp listed
    have there := (held_present_iff orderly).mp has
    rw [none id] at there
    cases there

theorem mem_table_records (orderly : store.Orderly) (entry : RecordId × Record) :
    entry ∈ store.tableRecords table ↔ store.held? table entry.1 = some entry.2 := by
  rw [tableRecords, List.mem_flatMap]
  constructor
  · rintro ⟨node, -, listed⟩
    obtain ⟨shard, primary, held⟩ := mem_records_at.mp listed
    obtain ⟨-, -, rfl⟩ := record_placed orderly held
    rw [held_at primary]
    exact held
  · intro held
    cases answers : store.primary? (shardOf entry.1 store.width) with
    | none =>
        rw [held?, answers] at held
        cases held
    | some primary =>
        rw [held_at answers] at held
        have inside := ring_inside store orderly.shaped _ primary (primary_owner answers)
        exact ⟨primary, node_among primary inside, mem_records_at.mpr ⟨_, answers, held⟩⟩

-- Two stores with the same records, however they are placed.
def Alike (a b : Store) : Prop := ∀ table id, a.held? table id = b.held? table id

theorem alike_rows {a b : Store} {written written' : List LogEntry} (alike : a.Alike b) (mirrors : a.Mirrors written)
    (mirrors' : b.Mirrors written') (table : TableId) (fields : List String) :
    (a.tableRows table fields).Perm (b.tableRows table fields) := by
  have nodup := List.Nodup.of_map _ (arranged mirrors table).single
  have nodup' := List.Nodup.of_map _ (arranged mirrors' table).single
  refine List.Perm.map _ ((List.perm_ext_iff_of_nodup nodup nodup').mpr fun entry => ?_)
  rw [mem_table_records (mirrors_orderly mirrors), mem_table_records (mirrors_orderly mirrors'), alike table entry.1]

end Store

end ShardQuery
