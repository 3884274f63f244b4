import ShardQuery.Proofs.Outcome
import ShardQuery.Proofs.Store.Replay
import ShardQuery.Proofs.Store.Upkeep
/-!
The records of a table, node by node. Main statements: the nodes of a placement read exactly the records that they
answer for, in ascending order of their ids, and every record of the table is among these once.
-/

set_option autoImplicit false

namespace ShardQuery.Store

-- The node that answers for a shard.
def primary? (store : Store) (shard : ShardId) : Option NodeId := (store.ring shard).head?

-- What a node has of a table in the shards that it answers for.
def recordsAt (store : Store) (table : TableId) (node : NodeId) : List (RecordId × Record) :=
  ((store.partition node).entries.filter fun entry =>
    entry.1.table == table && store.primary? entry.1.shard == some node).flatMap fun entry => entry.2.entries

def nodeIds (store : Store) : List NodeId := (List.range store.nodes.toNat).map fun i => ⟨UInt32.ofNat i⟩

-- The records of a table, one node after the other.
def tableRecords (store : Store) (table : TableId) : List (RecordId × Record) :=
  store.nodeIds.flatMap (store.recordsAt table)

def tableRows (store : Store) (table : TableId) (fields : List String) : List Row :=
  (store.tableRecords table).map fun entry => recordRow fields entry.1 entry.2

variable {store : Store} {written : List LogEntry} {table : TableId} {node : NodeId}

theorem primary_owner {shard : ShardId} (primary : store.primary? shard = some node) : node ∈ store.ring shard :=
  List.mem_of_head? primary

theorem primary_first {shard : ShardId} {primary : NodeId} {others : List NodeId}
    (owners : store.ring shard = primary :: others) : store.primary? shard = some primary := by
  rw [primary?, owners, List.head?_cons]

-- A record of a shard is there, and has an id of the shard.
theorem held_present (mirrors : store.Mirrors written) {shard : ShardId} {id : RecordId} {record : Record}
    (held : (records (store.partition node) table shard).get? id = some record) :
    node ∈ store.ring shard ∧ present written table shard id = true ∧ record = amended store.log table shard id ∧
      shardOf id store.width = shard := by
  by_cases inside : node.index.toNat < store.nodes.toNat
  · rw [mirrors.holding node inside] at held
    split at held
    · rename_i owner
      split at held
      · rename_i there
        exact ⟨owner, there, (Option.some.inj held).symm, (present_logged store written mirrors table shard id there).2⟩
      · cases held
    · cases held
  · rw [← mirrors.shaped.partitioned, Nat.not_lt] at inside
    rw [partition_outside store node inside] at held
    cases held

theorem mirrors_orderly (mirrors : store.Mirrors written) : store.Orderly := by
  refine ⟨mirrors.shaped, mirrors.trimmed, ?_, ?_⟩
  · intro node table shard id there
    obtain ⟨record, held⟩ := Option.isSome_iff_exists.mp there
    obtain ⟨owner, present, -, own⟩ := held_present mirrors held
    exact ⟨owner, present_counted store written mirrors table shard id present, own⟩
  · intro table shard node owner other owner'
    apply SortedMap.ext
    intro id
    rw [mirrors.holding node (ring_inside store mirrors.shaped shard node owner), if_pos owner,
      mirrors.holding other (ring_inside store mirrors.shaped shard other owner'), if_pos owner']

theorem record_placed (orderly : store.Orderly) {shard : ShardId} {id : RecordId} {record : Record}
    (held : (records (store.partition node) table shard).get? id = some record) : store.Placed node shard id :=
  orderly.placed node table shard id (Option.isSome_iff_exists.mpr ⟨record, held⟩)

-- What some node has of a shard, the node has that answers for it.
theorem primary_holds (orderly : store.Orderly) {shard : ShardId} {id : RecordId} {record : Record}
    (held : (records (store.partition node) table shard).get? id = some record) :
    ∃ primary, store.primary? shard = some primary ∧
      (records (store.partition primary) table shard).get? id = some record := by
  have owner := (record_placed orderly held).owner
  obtain ⟨primary, others, owners⟩ := List.exists_cons_of_ne_nil (List.ne_nil_of_mem owner)
  refine ⟨primary, primary_first owners, ?_⟩
  rw [orderly.copied table shard primary (primary_owner (primary_first owners)) node owner]
  exact held

theorem mem_records_at {entry : RecordId × Record} :
    entry ∈ store.recordsAt table node ↔ ∃ shard, store.primary? shard = some node ∧
      (records (store.partition node) table shard).get? entry.1 = some entry.2 := by
  rw [recordsAt, List.mem_flatMap]
  constructor
  · rintro ⟨⟨⟨own, shard⟩, kept⟩, listed, member⟩
    obtain ⟨among, meant⟩ := List.mem_filter.mp listed
    rw [Bool.and_eq_true, beq_iff_eq, beq_iff_eq] at meant
    obtain ⟨rfl, primary⟩ := meant
    refine ⟨shard, primary, ?_⟩
    rw [records, (SortedMap.get?_eq_some _ _ _).mpr among]
    exact (SortedMap.get?_eq_some _ _ _).mpr member
  · rintro ⟨shard, primary, held⟩
    rw [records] at held
    cases found : (store.partition node).get? ⟨table, shard⟩ with
    | none =>
        rw [found] at held
        cases held
    | some kept =>
        rw [found] at held
        refine ⟨(⟨table, shard⟩, kept), List.mem_filter.mpr ⟨(SortedMap.get?_eq_some _ _ _).mp found, ?_⟩,
          (SortedMap.get?_eq_some _ _ _).mp held⟩
        simp only [primary, BEq.rfl, Bool.and_self]

theorem key_order {a b : ShardKey} (same : a.table = b.table) (less : compare a b = .lt) : a.shard < b.shard := by
  change (compare a.table b.table).then (compare a.shard b.shard) = .lt at less
  have alike : compare b.table b.table = .eq := Std.ReflCmp.compare_self
  rw [same, alike] at less
  exact compareOfLessAndEq_eq_lt.mp less

-- The keys that a node answers for, shard by shard.
theorem own_keys_ascending (partition : Partition) (meant : ShardKey × Records → Bool)
    (about : ∀ entry, meant entry = true → entry.1.table = table) :
    (partition.entries.filter meant).Pairwise fun a b => a.1.shard < b.1.shard := by
  refine (partition.sorted.filter meant).imp_of_mem ?_
  intro a b member member' less
  exact key_order ((about a (List.mem_filter.mp member).2).trans (about b (List.mem_filter.mp member').2).symm) less

theorem own_about (entry : ShardKey × Records)
    (meant : (entry.1.table == table && store.primary? entry.1.shard == some node) = true) : entry.1.table = table :=
  beq_iff_eq.mp (Bool.and_eq_true_iff.mp meant).1

theorem shard_order {a b : RecordId} (width : UInt64) (less : shardOf a width < shardOf b width) : a < b := by
  rw [UInt64.lt_iff_toNat_lt] at less ⊢
  rw [shardOf, shardOf, UInt64.toNat_div, UInt64.toNat_div] at less
  by_contra reversed
  exact absurd (Nat.div_le_div_right (Nat.le_of_not_lt reversed)) (Nat.not_le_of_lt less)

-- Only the numbers of shards of a single id can be too large to count the owners from.
theorem shard_counted {width : UInt64} (wide : 2 ≤ width) (id : RecordId) (copies : UInt32) :
    (shardOf id width).toNat + (copies.toNat - 1) < 2 ^ 64 := by
  have halved : (shardOf id width).toNat ≤ id.toNat / 2 := by
    rw [shardOf, UInt64.toNat_div]
    exact Nat.div_le_div_left wide (by decide)
  have bounded := id.toNat_lt
  have counted := copies.toNat_lt
  omega

-- On one node the records come with ascending ids.
theorem records_ascending (orderly : store.Orderly) (table : TableId) (node : NodeId) :
    (store.recordsAt table node).Pairwise fun a b => a.1 < b.1 := by
  rw [recordsAt, List.pairwise_flatMap]
  constructor
  · intro entry _
    exact entry.2.sorted.imp fun less => compareOfLessAndEq_eq_lt.mp less
  · refine (own_keys_ascending (store.partition node) _ own_about).imp_of_mem ?_
    intro a b member member' less x inside y inside'
    have placed (entry : ShardKey × Records) (record : RecordId × Record)
        (member : entry ∈ (store.partition node).entries) (inside : record ∈ entry.2.entries) :
        shardOf record.1 store.width = entry.1.shard := by
      have held : (records (store.partition node) entry.1.table entry.1.shard).get? record.1 = some record.2 := by
        rw [records, (SortedMap.get?_eq_some _ entry.1 entry.2).mpr member]
        exact (SortedMap.get?_eq_some _ _ _).mpr inside
      exact (record_placed orderly held).own
    apply shard_order store.width
    rw [placed a x (List.mem_filter.mp member).1 inside, placed b y (List.mem_filter.mp member').1 inside']
    exact less

-- Every record of a table that some node holds is listed, and none twice; those of a node come with ascending ids.
structure Arranged (store : Store) (table : TableId) : Prop where
  ascending : ∀ node, (store.recordsAt table node).Pairwise fun a b => a.1 < b.1
  complete : ∀ node shard id record, (records (store.partition node) table shard).get? id = some record →
    (id, record) ∈ store.tableRecords table
  single : ((store.tableRecords table).map (·.1)).Nodup

theorem node_among (node : NodeId) (inside : node.index.toNat < store.nodes.toNat) : node ∈ store.nodeIds := by
  refine List.mem_map.mpr ⟨node.index.toNat, List.mem_range.mpr inside, ?_⟩
  rw [UInt32.ofNat_toNat]

theorem nodes_nodup (store : Store) : store.nodeIds.Nodup := by
  rw [nodeIds, List.nodup_map_iff_inj_on List.nodup_range]
  intro i among j among' same
  have small (i : Nat) (among : i ∈ List.range store.nodes.toNat) : (UInt32.ofNat i).toNat = i :=
    UInt32.toNat_ofNat_of_lt' (Nat.lt_trans (List.mem_range.mp among) store.nodes.toNat_lt)
  have indices : (UInt32.ofNat i).toNat = (UInt32.ofNat j).toNat := by rw [(NodeId.mk.inj same)]
  rwa [small i among, small j among'] at indices

theorem orderly_arranged (orderly : store.Orderly) (table : TableId) : store.Arranged table := by
  refine ⟨records_ascending orderly table, ?_, ?_⟩
  · intro node shard id record held
    obtain ⟨primary, answers, kept⟩ := primary_holds orderly held
    have inside := ring_inside store orderly.shaped shard primary (primary_owner answers)
    exact List.mem_flatMap.mpr ⟨primary, node_among primary inside, mem_records_at.mpr ⟨shard, answers, kept⟩⟩
  · rw [tableRecords, List.map_flatMap, List.nodup_flatMap]
    constructor
    · intro node _
      refine List.pairwise_map.mpr ((records_ascending orderly table node).imp fun less same => ?_)
      exact absurd same (UInt64.ne_of_lt less)
    · refine (nodes_nodup store).imp ?_
      intro a b different id member member'
      obtain ⟨x, listed, rfl⟩ := List.mem_map.mp member
      obtain ⟨y, listed', same⟩ := List.mem_map.mp member'
      obtain ⟨shard, primary, held⟩ := mem_records_at.mp listed
      obtain ⟨shard', primary', held'⟩ := mem_records_at.mp listed'
      have own := (record_placed orderly held).own
      have own' := (record_placed orderly held').own
      rw [same, own] at own'
      rw [← own', primary] at primary'
      exact different (Option.some.inj primary')

theorem arranged (mirrors : store.Mirrors written) (table : TableId) : store.Arranged table :=
  orderly_arranged (mirrors_orderly mirrors) table

-- What one owner of a shard holds, the others hold.
theorem held_by_owners (orderly : store.Orderly) {other : NodeId} {key : ShardKey}
    (held : ((store.partition other).get? key).isSome = true) (owner : node ∈ store.ring key.shard) :
    ((store.partition node).get? key).isSome = true := by
  obtain ⟨kept, found⟩ := Option.isSome_iff_exists.mp held
  obtain ⟨id, record, recorded⟩ := Partition.held_filled _ (orderly.trimmed other) key kept found
  have owner' := (held_placed orderly other key kept found id record recorded).owner
  have same := orderly.copied key.table key.shard other owner' node owner
  rw [records, records, found, Option.getD_some] at same
  cases own : (store.partition node).get? key with
  | some _ => rfl
  | none =>
      rw [own] at same
      rw [same] at recorded
      cases recorded

-- The shards that a node answers for are those of its partition, as far as it answers for them.
theorem own_shards (orderly : store.Orderly) (table : TableId) (node : NodeId)
    (inside : node.index.toNat < store.nodes.toNat) :
    (store.shards table).filter (fun shard => store.primary? shard == some node) =
      ((store.partition node).entries.filter fun entry =>
        entry.1.table == table && store.primary? entry.1.shard == some node).map (·.1.shard) := by
  obtain ⟨ascending, listed⟩ := shards_ascending store table
  have left := ascending.filter fun shard => store.primary? shard == some node
  have right : (((store.partition node).entries.filter fun entry =>
      entry.1.table == table && store.primary? entry.1.shard == some node).map (·.1.shard)).Pairwise (· < ·) :=
    List.pairwise_map.mpr (own_keys_ascending (store.partition node) _ own_about)
  have distinct (list : List ShardId) (sorted : list.Pairwise (· < ·)) : list.Nodup :=
    sorted.imp fun less same => absurd same (UInt64.ne_of_lt less)
  refine List.Perm.eq_of_pairwise ?_ left right ((List.perm_ext_iff_of_nodup (distinct _ left) (distinct _ right)).mpr ?_)
  · intro a b _ _ less greater
    exact absurd less (UInt64.not_lt.mpr (UInt64.le_of_lt greater))
  · intro shard
    rw [List.mem_filter, beq_iff_eq, List.mem_map]
    constructor
    · rintro ⟨member, primary⟩
      obtain ⟨partition, among, held⟩ := (listed shard).mp member
      obtain ⟨other, -, rfl⟩ := (partition_among orderly.shaped partition).mp among
      obtain ⟨kept, found⟩ := Option.isSome_iff_exists.mp (held_by_owners orderly held (primary_owner primary))
      refine ⟨(⟨table, shard⟩, kept), List.mem_filter.mpr ⟨(SortedMap.get?_eq_some _ _ _).mp found, ?_⟩, rfl⟩
      simp only [primary, BEq.rfl, Bool.and_self]
    · rintro ⟨entry, member, rfl⟩
      obtain ⟨among, meant⟩ := List.mem_filter.mp member
      rw [Bool.and_eq_true, beq_iff_eq, beq_iff_eq] at meant
      refine ⟨(listed _).mpr ⟨store.partition node, (partition_among orderly.shaped _).mpr ⟨node, inside, rfl⟩, ?_⟩, meant.2⟩
      rw [← meant.1]
      exact Option.isSome_iff_exists.mpr ⟨entry.2, (SortedMap.get?_eq_some _ _ _).mpr among⟩

-- The node of a placement for a node of the store; none where it answers for no shard.
def placed? (store : Store) (shards : List ShardId) (node : NodeId) : Option ClusterNode :=
  let own := shards.filter fun shard => store.primary? shard == some node
  if own.isEmpty then none else some ⟨node, own⟩

theorem placement_eq (shards : List ShardId)
    (counted : ∀ shard ∈ shards, shard.toNat + (store.replicas.toNat - 1) < 2 ^ 64) :
    store.placement shards = .ok (store.nodeIds.filterMap (store.placed? shards)) := by
  have primaries : (shards.mapM fun shard => do return (shard, (← store.owners shard).head?)) =
      Except.ok (shards.map fun shard => (shard, store.primary? shard)) := by
    refine map_m_ok_iff.mpr (List.forall₂_map_right_iff.mpr (List.forall₂_same.mpr fun shard member => ?_))
    rw [owners, if_pos (counted shard member)]
    rfl
  rw [placement, primaries, nodeIds, List.filterMap_map]
  have each (i : Nat) : (((shards.map fun shard => (shard, store.primary? shard)).filter
      (·.2 == some (⟨UInt32.ofNat i⟩ : NodeId))).map (·.1)) =
        shards.filter fun shard => store.primary? shard == some ⟨UInt32.ofNat i⟩ := by
    rw [List.filter_map, List.map_map]
    exact List.map_id _
  change Except.ok ((List.range store.nodes.toNat).filterMap fun i => _) = _
  simp only [each]
  rfl

theorem serves_own (shards : List ShardId) (node : NodeId) (placed : ClusterNode)
    (found : store.placed? shards node = some placed) :
    placed.id = node ∧ shards.filter placed.serves = shards.filter fun shard => store.primary? shard == some node := by
  rw [placed?] at found
  split at found
  · cases found
  · cases found
    refine ⟨rfl, List.filter_congr fun shard member => ?_⟩
    rw [ClusterNode.serves, Bool.eq_iff_iff, List.contains_iff_mem, List.mem_filter]
    exact and_iff_right member

-- What a node reads in the shards that it answers for.
theorem read_own (orderly : store.Orderly) (table : TableId) (node : NodeId)
    (inside : node.index.toNat < store.nodes.toNat) (fields : List String) :
    ∃ parts, ((store.shards table).filter fun shard => store.primary? shard == some node).mapM
        (store.readShard (some node) table · fields) = .ok parts ∧
      parts.flatten = (store.recordsAt table node).map fun entry => recordRow fields entry.1 entry.2 := by
  rw [own_shards orderly table node inside]
  refine ⟨((store.partition node).entries.filter fun entry =>
      entry.1.table == table && store.primary? entry.1.shard == some node).map fun entry =>
    entry.2.entries.map fun record => recordRow fields record.1 record.2, ?_, ?_⟩
  · rw [map_m_ok_iff, List.forall₂_map_left_iff, List.forall₂_map_right_iff, List.forall₂_same]
    intro entry member
    obtain ⟨among, meant⟩ := List.mem_filter.mp member
    rw [Bool.and_eq_true, beq_iff_eq, beq_iff_eq] at meant
    have owner := primary_owner meant.2
    have held := (SortedMap.get?_eq_some (store.partition node) entry.1 entry.2).mpr among
    have counted := (orderly_owned orderly).counted node entry.1 (Option.isSome_iff_exists.mpr ⟨_, held⟩)
    rw [read_owner store entry.1.shard (store.ring entry.1.shard) (if_pos counted) node owner, records, ← meant.1, held]
    rfl
  · rw [recordsAt, List.map_flatMap, List.flatten_eq_flatMap, List.flatMap_map]
    rfl

-- A node that answers for no shard has no records to list.
theorem unplaced_empty (orderly : store.Orderly) (table : TableId) (node : NodeId)
    (inside : node.index.toNat < store.nodes.toNat) (unplaced : store.placed? (store.shards table) node = none) :
    store.recordsAt table node = [] := by
  rw [placed?] at unplaced
  split at unplaced
  · rename_i none
    rw [own_shards orderly table node inside, List.isEmpty_iff, List.map_eq_nil_iff] at none
    rw [recordsAt, none, List.flatMap_nil]
  · cases unplaced

theorem nodes_inside (node : NodeId) (among : node ∈ store.nodeIds) : node.index.toNat < store.nodes.toNat := by
  obtain ⟨i, small, rfl⟩ := List.mem_map.mp among
  have below := List.mem_range.mp small
  rwa [UInt32.toNat_ofNat_of_lt' (Nat.lt_trans below store.nodes.toNat_lt)]

-- What is made of every node is made of those of a placement, if nothing is made of the others.
theorem placed_gathered {β : Type} (shards : List ShardId) (each : NodeId → List β) (ids : List NodeId)
    (unplaced : ∀ node ∈ ids, store.placed? shards node = none → each node = []) :
    ((ids.filterMap (store.placed? shards)).map fun placed => each placed.id).flatten = ids.flatMap each := by
  induction ids with
  | nil => rfl
  | cons node ids ih =>
      have rest := ih fun other member => unplaced other (List.mem_cons_of_mem _ member)
      cases found : store.placed? shards node with
      | none =>
          rw [List.filterMap_cons_none found, rest, List.flatMap_cons, unplaced node List.mem_cons_self found,
            List.nil_append]
      | some placed =>
          rw [List.filterMap_cons_some found, List.map_cons, List.flatten_cons, rest, List.flatMap_cons,
            (serves_own _ node placed found).1]

-- The nodes of a placement read the records of the table, one node after the other.
theorem placement_reads (orderly : store.Orderly) (table : TableId) (fields : List String) :
    ∃ nodes parts, store.placement (store.shards table) = .ok nodes ∧ parts.flatten = store.tableRows table fields ∧
      List.Forall₂ (fun (node : ClusterNode) part => ∃ shards,
        ((store.shards table).filter node.serves).mapM (store.readShard (some node.id) table · fields) = .ok shards ∧
          shards.flatten = part) nodes parts := by
  let rowsAt (node : NodeId) : List Row := (store.recordsAt table node).map fun entry => recordRow fields entry.1 entry.2
  have unplaced : ∀ node ∈ store.nodeIds, store.placed? (store.shards table) node = none → rowsAt node = [] := by
    intro node among none
    simp only [rowsAt, unplaced_empty orderly table node (nodes_inside node among) none, List.map_nil]
  refine ⟨store.nodeIds.filterMap (store.placed? (store.shards table)), _,
    placement_eq _ (fun shard listed => (owned_listed (orderly_owned orderly) listed).2),
    (placed_gathered (store.shards table) rowsAt store.nodeIds unplaced).trans ?_, ?_⟩
  · rw [tableRows, tableRecords, List.map_flatMap]
  · rw [List.forall₂_map_right_iff, List.forall₂_same]
    intro placed member
    obtain ⟨node, among, found⟩ := List.mem_filterMap.mp member
    obtain ⟨same, own⟩ := serves_own _ node placed found
    rw [same, own]
    exact read_own orderly table node (nodes_inside node among) fields

end ShardQuery.Store
