import ShardQuery.Proofs.Store.History
import ShardQuery.Proofs.Repetition
/-!
The shards that a store lists for a table. Main statements: they are those in which some record is there, in ascending
order, each of them once.
-/

set_option autoImplicit false

namespace ShardQuery

namespace Store

theorem shards_ascending (store : Store) (table : TableId) :
    (store.shards table).Pairwise (fun a b => a < b) ∧
      ∀ shard, shard ∈ store.shards table ↔
        ∃ partition ∈ store.partitions, (partition.get? ⟨table, shard⟩).isSome = true := by
  have listed (shard : ShardId) :
      shard ∈ (store.partitions.flatMap fun partition =>
        (partition.keys.filter (·.table == table)).map (·.shard)) ↔
      ∃ partition ∈ store.partitions, (partition.get? ⟨table, shard⟩).isSome = true := by
    simp only [List.mem_flatMap, List.mem_map, List.mem_filter, SortedMap.get?_isSome, beq_iff_eq]
    constructor
    · rintro ⟨partition, among, ⟨_, _⟩, ⟨held, rfl⟩, rfl⟩
      exact ⟨partition, among, held⟩
    · rintro ⟨partition, among, held⟩
      exact ⟨partition, among, ⟨table, shard⟩, ⟨held, rfl⟩, rfl⟩
  have trans (a b c : ShardId) (less : decide (a ≤ b) = true) (less' : decide (b ≤ c) = true) : decide (a ≤ c) = true :=
    decide_eq_true (UInt64.le_trans (of_decide_eq_true less) (of_decide_eq_true less'))
  have total (a b : ShardId) : (decide (a ≤ b) || decide (b ≤ a)) = true := by simpa using UInt64.le_total a b
  have antisymm (a b : ShardId) (less : decide (a ≤ b) = true) (more : decide (b ≤ a) = true) : a = b :=
    UInt64.le_antisymm (of_decide_eq_true less) (of_decide_eq_true more)
  obtain ⟨ascending, members⟩ := sorted_reps_ascending trans total antisymm
    (store.partitions.flatMap fun partition => (partition.keys.filter (·.table == table)).map (·.shard))
  refine ⟨ascending.imp fun {a b} both => ?_, fun shard => (members shard).trans (listed shard)⟩
  exact UInt64.lt_of_le_of_ne (of_decide_eq_true both.1) both.2

-- Shards that the partitions hold in ascending order.
theorem shards_of_held {store : Store} {table : TableId} (held : List ShardId)
    (found : (store.partitions.flatMap fun partition =>
      (partition.keys.filter (·.table == table)).map (·.shard)) = held)
    (sorted : held.Pairwise fun a b => decide (a ≤ b) = true) : store.shards table = held.eraseReps := by
  rw [shards, found, List.mergeSort_of_pairwise sorted]

variable {store : Store} {written : List LogEntry}

theorem ring_primary (copies : 0 < store.replicas.toNat) (shard : ShardId) :
    ∃ primary others, store.ring shard = primary :: others := by
  cases owners : store.ring shard with
  | nil =>
      rw [ring, List.map_eq_nil_iff, List.range_eq_nil] at owners
      omega
  | cons primary others => exact ⟨primary, others, rfl⟩

-- What a node holds of a shard, as far as some record is there.
theorem node_holds_iff (mirrors : store.Mirrors written) (node : NodeId) (inside : node.index.toNat < store.nodes.toNat)
    (table : TableId) (shard : ShardId) :
    ((store.partition node).get? ⟨table, shard⟩).isSome = true ↔
      node ∈ store.ring shard ∧ ∃ id, present written table shard id = true := by
  have held (id : RecordId) : ((records (store.partition node) table shard).get? id).isSome = true ↔
      node ∈ store.ring shard ∧ present written table shard id = true := by
    rw [mirrors.holding node inside table shard id]
    by_cases owner : node ∈ store.ring shard
    · rw [if_pos owner]
      by_cases there : present written table shard id = true
      · rw [if_pos there]
        exact ⟨fun _ => ⟨owner, there⟩, fun _ => rfl⟩
      · rw [if_neg there]
        exact ⟨nofun, fun both => absurd both.2 there⟩
    · rw [if_neg owner]
      exact ⟨nofun, fun both => absurd both.1 owner⟩
  constructor
  · intro some
    obtain ⟨kept, found⟩ := Option.isSome_iff_exists.mp some
    obtain ⟨id, record, recorded⟩ := Partition.held_filled _ (mirrors.trimmed node) ⟨table, shard⟩ kept found
    have there : ((records (store.partition node) table shard).get? id).isSome = true := by
      rw [records, found]
      exact Option.isSome_iff_exists.mpr ⟨record, recorded⟩
    obtain ⟨owner, present⟩ := (held id).mp there
    exact ⟨owner, id, present⟩
  · rintro ⟨owner, id, present⟩
    have there := (held id).mpr ⟨owner, present⟩
    rw [records] at there
    cases kept : (store.partition node).get? ⟨table, shard⟩ with
    | some records => rfl
    | none =>
        rw [kept] at there
        cases there

theorem partition_among (shaped : store.Shaped) (partition : Partition) :
    partition ∈ store.partitions ↔ ∃ node : NodeId, node.index.toNat < store.nodes.toNat ∧
      store.partition node = partition := by
  rw [List.mem_iff_getElem?]
  constructor
  · rintro ⟨i, found⟩
    obtain ⟨small, -⟩ := List.getElem?_eq_some_iff.mp found
    rw [shaped.partitioned] at small
    have index : (UInt32.ofNat i).toNat = i := UInt32.toNat_ofNat_of_lt' (Nat.lt_trans small store.nodes.toNat_lt)
    refine ⟨⟨UInt32.ofNat i⟩, index.symm ▸ small, ?_⟩
    rw [Store.partition, index, found]
    rfl
  · rintro ⟨node, inside, rfl⟩
    refine ⟨node.index.toNat, ?_⟩
    rw [← shaped.partitioned] at inside
    rw [Store.partition, List.getElem?_eq_getElem inside]
    rfl

theorem listed_iff (mirrors : store.Mirrors written) (copies : 0 < store.replicas.toNat) (table : TableId)
    (shard : ShardId) : shard ∈ store.shards table ↔ ∃ id, present written table shard id = true := by
  rw [(shards_ascending store table).2]
  constructor
  · rintro ⟨partition, among, held⟩
    obtain ⟨node, inside, rfl⟩ := (partition_among mirrors.shaped partition).mp among
    exact ((node_holds_iff mirrors node inside table shard).mp held).2
  · rintro ⟨id, present⟩
    obtain ⟨primary, others, owners⟩ := ring_primary copies shard
    have owner : primary ∈ store.ring shard := owners ▸ List.mem_cons_self
    have inside := ring_inside store mirrors.shaped shard primary owner
    exact ⟨store.partition primary, (partition_among mirrors.shaped _).mpr ⟨primary, inside, rfl⟩,
      (node_holds_iff mirrors primary inside table shard).mpr ⟨owner, id, present⟩⟩

end Store

end ShardQuery
