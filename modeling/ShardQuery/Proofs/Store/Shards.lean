import Mathlib.Data.List.Nodup
import Mathlib.Data.Nat.ModEq
import ShardQuery.Proofs.Store.Records
import ShardQuery.Store.Read
/-!
Shards on their nodes. Main statements: the owners of a shard are distinct nodes of the store, and what each change
to the store makes of every shard on every node.
-/

set_option autoImplicit false

namespace ShardQuery

namespace Partition

-- No shard is kept without records.
def Trimmed (partition : Partition) : Prop := ∀ key records, partition.get? key = some records → records.isEmpty = false

theorem empty_trimmed : Trimmed .empty := by
  intro key records found
  cases found

-- A shard that is held has a record.
theorem held_filled (partition : Partition) (trimmed : partition.Trimmed) (key : ShardKey) (held : Records)
    (found : partition.get? key = some held) : ∃ id record, held.get? id = some record := by
  have filled := trimmed key held found
  obtain ⟨entry, among⟩ := List.exists_mem_of_ne_nil held.entries fun none => by
    rw [SortedMap.isEmpty, none] at filled
    cases filled
  exact ⟨entry.1, entry.2, (SortedMap.get?_eq_some held entry.1 entry.2).mpr among⟩

theorem records_of_trimmed (a b : Partition) (trimmed : a.Trimmed) (trimmed' : b.Trimmed)
    (same : ∀ table shard, Store.records a table shard = Store.records b table shard) : a = b := by
  apply SortedMap.ext
  rintro ⟨table, shard⟩
  have held := same table shard
  unfold Store.records at held
  cases left : a.get? ⟨table, shard⟩ with
  | none =>
      cases right : b.get? ⟨table, shard⟩ with
      | none => rfl
      | some records =>
          rw [left, right] at held
          have kept := trimmed' _ _ right
          rw [← show SortedMap.empty = records from held] at kept
          cases kept
  | some records =>
      cases right : b.get? ⟨table, shard⟩ with
      | none =>
          rw [left, right] at held
          have kept := trimmed _ _ left
          rw [show records = SortedMap.empty from held] at kept
          cases kept
      | some other =>
          rw [left, right] at held
          exact congrArg some held

variable (partition : Partition) (table other : TableId) (shard shard' : ShardId)

theorem records_apply (changes : List RowUpdate) :
    Store.records (partition.apply table shard changes) other shard' =
      if other = table ∧ shard' = shard then (Store.records partition table shard).updateAll changes
      else Store.records partition other shard' := by
  by_cases here : other = table ∧ shard' = shard
  · rw [if_pos here, here.1, here.2, apply]
    split
    · rename_i none
      rw [Store.records, SortedMap.get?_erase, if_pos rfl, (SortedMap.isEmpty_iff _).mp none]
      rfl
    · rw [Store.records, SortedMap.get?_insert, if_pos rfl]
      rfl
  · have elsewhere : (⟨other, shard'⟩ : ShardKey) ≠ ⟨table, shard⟩ := fun same => here (ShardKey.mk.inj same)
    rw [if_neg here, apply]
    split
    · rw [Store.records, SortedMap.get?_erase, if_neg elsewhere, Store.records]
    · rw [Store.records, SortedMap.get?_insert, if_neg elsewhere, Store.records]

theorem apply_trimmed (changes : List RowUpdate) (trimmed : partition.Trimmed) :
    (partition.apply table shard changes).Trimmed := by
  intro key records found
  rw [apply] at found
  split at found
  · rw [SortedMap.get?_erase] at found
    split at found
    · cases found
    · exact trimmed key records found
  · rename_i filled
    rw [SortedMap.get?_insert] at found
    split at found
    · rw [← Option.some.inj found]
      exact Bool.eq_false_iff.mpr filled
    · exact trimmed key records found

theorem records_delete_table :
    Store.records (partition.deleteTable table) other shard =
      if other = table then .empty else Store.records partition other shard := by
  rw [Store.records, deleteTable, SortedMap.get?_filter, Store.records]
  by_cases same : other = table
  · rw [if_pos same, same]
    cases partition.get? ⟨table, shard⟩ <;> simp
  · rw [if_neg same]
    cases partition.get? ⟨other, shard⟩ <;> simp [Option.filter, same]

theorem delete_table_trimmed (trimmed : partition.Trimmed) : (partition.deleteTable table).Trimmed := by
  intro key records found
  rw [deleteTable, SortedMap.get?_filter, Option.filter_eq_some_iff] at found
  exact trimmed key records found.1

theorem records_delete_field (field : String) :
    Store.records (partition.deleteField table field) other shard =
      if other = table then (Store.records partition other shard).mapItems fun _ record => record.erase field
      else Store.records partition other shard := by
  rw [Store.records, deleteField, SortedMap.get?_mapItems, Store.records]
  by_cases same : other = table
  · rw [if_pos same]
    cases partition.get? ⟨other, shard⟩ with
    | none => rfl
    | some records => simp [same]
  · rw [if_neg same]
    cases partition.get? ⟨other, shard⟩ <;> simp [same]

theorem delete_field_trimmed (field : String) (trimmed : partition.Trimmed) :
    (partition.deleteField table field).Trimmed := by
  intro key records found
  rw [deleteField, SortedMap.get?_mapItems, Option.map_eq_some_iff] at found
  obtain ⟨before, found, rfl⟩ := found
  have kept := trimmed key before found
  split
  · simpa [SortedMap.isEmpty, SortedMap.mapItems] using kept
  · exact kept

end Partition

namespace Store

structure Shaped (store : Store) : Prop where
  peopled : 0 < store.nodes.toNat
  enough : store.replicas.toNat ≤ store.nodes.toNat
  partitioned : store.partitions.length = store.nodes.toNat

theorem make_shaped (nodes : UInt32) (replicas : Nat) (width fresh : UInt64) :
    (make nodes replicas width fresh).Shaped := by
  have capped (copies limit : UInt32) : (if copies ≤ limit then copies else limit).toNat ≤ limit.toNat := by
    split
    · rename_i fewer
      exact UInt32.le_iff_toNat_le.mp fewer
    · exact Nat.le_refl _
  refine ⟨?_, ?_, ?_⟩
  · simp only [make]
    split
    · decide
    · rename_i some
      exact Nat.pos_of_ne_zero fun none => some (UInt32.toNat_inj.mp none)
  · exact capped _ _
  · simp [make]

theorem ring_inside (store : Store) (shaped : store.Shaped) (shard : ShardId) (node : NodeId)
    (owner : node ∈ store.ring shard) : node.index.toNat < store.nodes.toNat := by
  obtain ⟨k, -, rfl⟩ := List.mem_map.mp owner
  have small : (shard.toNat + k) % store.nodes.toNat < store.nodes.toNat := Nat.mod_lt _ shaped.peopled
  change (UInt32.ofNat _).toNat < _
  rw [UInt32.toNat_ofNat_of_lt' (Nat.lt_trans small store.nodes.toNat_lt)]
  exact small

theorem ring_nodup (store : Store) (shaped : store.Shaped) (shard : ShardId) : (store.ring shard).Nodup := by
  have enough := shaped.enough
  rw [ring, List.nodup_map_iff_inj_on List.nodup_range]
  intro j among k among' same
  rw [List.mem_range] at among among'
  have small (n : Nat) : (shard.toNat + n) % store.nodes.toNat < UInt32.size :=
    Nat.lt_trans (Nat.mod_lt _ shaped.peopled) store.nodes.toNat_lt
  have numbers := congrArg UInt32.toNat (NodeId.mk.inj same)
  rw [UInt32.toNat_ofNat_of_lt' (small j), UInt32.toNat_ofNat_of_lt' (small k)] at numbers
  have shifted : j ≡ k [MOD store.nodes.toNat] := Nat.ModEq.add_left_cancel' shard.toNat numbers
  rw [Nat.ModEq, Nat.mod_eq_of_lt (by omega), Nat.mod_eq_of_lt (by omega)] at shifted
  exact shifted

-- Two stores that place every record on the same nodes.
structure SameShape (a b : Store) : Prop where
  nodes : a.nodes = b.nodes
  replicas : a.replicas = b.replicas
  width : a.width = b.width

theorem same_shape_trans (a b c : Store) (first : a.SameShape b) (second : b.SameShape c) : a.SameShape c :=
  ⟨first.nodes.trans second.nodes, first.replicas.trans second.replicas, first.width.trans second.width⟩

theorem same_shape_ring (a b : Store) (shape : a.SameShape b) (shard : ShardId) : a.ring shard = b.ring shard := by
  rw [ring, ring, shape.nodes, shape.replicas]

theorem owners_ring (store : Store) (shard : ShardId) (owners : List NodeId) (counted : store.owners shard = .ok owners) :
    owners = store.ring shard := by
  rw [Store.owners] at counted
  split at counted
  · exact (Except.ok.inj counted).symm
  · cases counted

theorem read_owner (store : Store) (shard : ShardId) (owners : List NodeId) (counted : store.owners shard = .ok owners) (owner : NodeId)
    (among : owner ∈ owners) (table : TableId) (fields : List String) :
    store.readShard (some owner) table shard fields =
      .ok ((records (store.partition owner) table shard).entries.map fun entry => recordRow fields entry.1 entry.2) := by
  unfold readShard
  rw [counted]
  change ((if owners.contains owner then Except.ok owner else _) >>= fun node => _) = _
  rw [if_pos (List.contains_iff_mem.mpr among)]
  rfl

theorem partition_outside (store : Store) (node : NodeId) (outside : store.partitions.length ≤ node.index.toNat) :
    store.partition node = .empty := by
  rw [partition, List.getElem?_eq_none outside]
  rfl

theorem partition_apply_on (store : Store) (node other : NodeId) (table : TableId) (shard : ShardId)
    (changes : List RowUpdate) (inside : other.index.toNat < store.partitions.length) :
    (store.applyOn node table shard changes).partition other =
      if other = node then (store.partition other).apply table shard changes else store.partition other := by
  rw [partition, applyOn, List.getElem?_modify, partition]
  by_cases same : other = node
  · rw [if_pos same, ← same, List.getElem?_eq_getElem inside]
    simp
  · have different : node.index.toNat ≠ other.index.toNat := by
      intro equal
      have index := UInt32.toNat_inj.mp equal
      cases node
      cases other
      exact same (congrArg NodeId.mk index.symm)
    simp [same, different]

theorem partition_apply_on_all (store : Store) (nodes : List NodeId) (node : NodeId) (table : TableId)
    (shard : ShardId) (changes : List RowUpdate) (distinct : nodes.Nodup)
    (inside : node.index.toNat < store.partitions.length) :
    (store.applyOnAll nodes table shard changes).partition node =
      if node ∈ nodes then (store.partition node).apply table shard changes else store.partition node := by
  induction nodes generalizing store with
  | nil => rfl
  | cons first rest ih =>
      obtain ⟨new, distinct⟩ := List.nodup_cons.mp distinct
      have length : (store.applyOn first table shard changes).partitions.length = store.partitions.length :=
        List.length_modify _ _ _
      refine (ih (store.applyOn first table shard changes) distinct (length ▸ inside)).trans ?_
      rw [partition_apply_on store first node table shard changes inside]
      by_cases same : node = first
      · rw [if_pos same, if_neg (same ▸ new), if_pos (same ▸ List.mem_cons_self)]
      · rw [if_neg same]
        by_cases member : node ∈ rest
        · rw [if_pos member, if_pos (List.mem_cons_of_mem _ member)]
        · rw [if_neg member, if_neg fun among => (List.mem_cons.mp among).elim same member]

theorem apply_on_all_shape (store : Store) (nodes : List NodeId) (table : TableId) (shard : ShardId)
    (changes : List RowUpdate) :
    ∃ partitions, store.applyOnAll nodes table shard changes = { store with partitions } ∧
      partitions.length = store.partitions.length := by
  induction nodes generalizing store with
  | nil => exact ⟨store.partitions, rfl, rfl⟩
  | cons first rest ih =>
      obtain ⟨partitions, whole, length⟩ := ih (store.applyOn first table shard changes)
      exact ⟨partitions, whole, length.trans (List.length_modify _ _ _)⟩

end Store

end ShardQuery
