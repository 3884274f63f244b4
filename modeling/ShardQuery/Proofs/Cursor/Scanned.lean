import ShardQuery.Proofs.Cursor.Answers
import ShardQuery.Proofs.Store.Placement
/-!
Scans of a table. Main statement: in every store that is reached without forwarded imports, a placement gives each shard
of a table to the one node that answers for it, the scans on its nodes find every record of the table once, and so does a
scan on no node, with ascending ids.
-/

set_option autoImplicit false

namespace ShardQuery

namespace Store

-- A store that was reached without an import that another node forwards.
inductive Reached : Store → Prop
  | made (nodes : UInt32) (replicas : Nat) (width fresh : UInt64) : Reached (make nodes replicas width fresh)
  | asked {store : Store} (before : Reached store) (request : StoreRequest) : Reached (request.perform store).2
  | replayed {store : Store} (before : Reached store) (entries : List LogEntry) : Reached (store.replay entries).2
  | served {store : Store} (before : Reached store) (desk : TransactionDesk) : Reached { store with desk }

variable {store : Store} {table : TableId}

-- Neither the log nor the transactions have to do with where records lie.
theorem beside_orderly (log : List LogEntry) (desk : TransactionDesk) (orderly : store.Orderly) :
    { store with log, desk }.Orderly where
  shaped := ⟨orderly.shaped.peopled, orderly.shaped.enough, orderly.shaped.partitioned⟩
  trimmed := orderly.trimmed
  placed node table shard id there :=
    placed_same_shape store { store with log, desk } ⟨rfl, rfl, rfl⟩ node shard id (orderly.placed node table shard id there)
  copied := orderly.copied

theorem replay_orderly (entries : List LogEntry) (orderly : store.Orderly) : (store.replay entries).2.Orderly := by
  induction entries generalizing store with
  | nil => exact orderly
  | cons entry entries ih =>
      rw [replay]
      cases replayed : store.replayEntry entry with
      | error e => exact orderly
      | ok after =>
          obtain ⟨imported, taken, recorded⟩ := ok_of_bind replayed
          cases recorded
          exact ih (beside_orderly _ imported.desk (import_orderly imported entry false orderly taken))

theorem reached_orderly (reached : store.Reached) : store.Orderly := by
  induction reached with
  | made nodes replicas width fresh => exact make_orderly nodes replicas width fresh
  | asked _ request before => exact (perform_orderly request before).1
  | replayed _ entries before => exact replay_orderly entries before
  | served _ desk before => exact beside_orderly _ desk before

-- Some node has the record in some shard.
def KeptSomewhere (store : Store) (table : TableId) (entry : RecordId × Record) : Prop :=
  ∃ node shard, (records (store.partition node) table shard).get? entry.1 = some entry.2

-- The records of a shard, as the node has them that answers for it.
def shardRecords (store : Store) (table : TableId) (shard : ShardId) : List (RecordId × Record) :=
  ((store.primary? shard).map fun node => (records (store.partition node) table shard).entries).getD []

-- The records of a table, one shard after the other.
def listedRecords (store : Store) (table : TableId) : List (RecordId × Record) :=
  (store.shards table).flatMap (store.shardRecords table)

theorem mem_shard_records {shard : ShardId} {entry : RecordId × Record} :
    entry ∈ store.shardRecords table shard ↔ ∃ node, store.primary? shard = some node ∧
      (records (store.partition node) table shard).get? entry.1 = some entry.2 := by
  rw [shardRecords]
  cases primary : store.primary? shard with
  | none => simp
  | some node => simp [SortedMap.get?_eq_some]

theorem shard_record_placed (orderly : store.Orderly) {shard : ShardId} {entry : RecordId × Record}
    (member : entry ∈ store.shardRecords table shard) : shardOf entry.1 store.width = shard := by
  obtain ⟨node, -, held⟩ := mem_shard_records.mp member
  exact (record_placed orderly held).own

theorem shard_records_ascending (shard : ShardId) :
    (store.shardRecords table shard).Pairwise fun a b => a.1 < b.1 := by
  rw [shardRecords]
  cases store.primary? shard with
  | none => exact .nil
  | some node =>
      exact (records (store.partition node) table shard).sorted.imp fun less => compareOfLessAndEq_eq_lt.mp less

theorem listed_ascending (orderly : store.Orderly) (table : TableId) :
    (store.listedRecords table).Pairwise fun a b => a.1 < b.1 := by
  rw [listedRecords, List.pairwise_flatMap]
  refine ⟨fun shard _ => shard_records_ascending shard, (shards_ascending store table).1.imp fun less => ?_⟩
  intro x inside y inside'
  apply shard_order store.width
  rw [shard_record_placed orderly inside, shard_record_placed orderly inside']
  exact less

theorem shard_listed (orderly : store.Orderly) {node : NodeId} {shard : ShardId} {id : RecordId} {record : Record}
    (held : (records (store.partition node) table shard).get? id = some record) : shard ∈ store.shards table := by
  have placed := record_placed orderly held
  have inside := ring_inside store orderly.shaped shard node placed.owner
  refine (listed_has orderly table shard).mpr ⟨id, ⟨store.partition node, ?_, shard, ?_⟩, placed.own⟩
  · exact (partition_among orderly.shaped _).mpr ⟨node, inside, rfl⟩
  · exact Option.isSome_iff_exists.mpr ⟨_, held⟩

theorem mem_listed (orderly : store.Orderly) (entry : RecordId × Record) :
    entry ∈ store.listedRecords table ↔ store.KeptSomewhere table entry := by
  rw [listedRecords, List.mem_flatMap]
  constructor
  · rintro ⟨shard, -, member⟩
    obtain ⟨node, -, held⟩ := mem_shard_records.mp member
    exact ⟨node, shard, held⟩
  · rintro ⟨node, shard, held⟩
    exact ⟨shard, shard_listed orderly held, mem_shard_records.mpr (primary_holds orderly held)⟩

theorem mem_placed (orderly : store.Orderly) (entry : RecordId × Record) :
    entry ∈ store.tableRecords table ↔ store.KeptSomewhere table entry := by
  constructor
  · intro member
    obtain ⟨node, -, member⟩ := List.mem_flatMap.mp member
    obtain ⟨shard, -, held⟩ := mem_records_at.mp member
    exact ⟨node, shard, held⟩
  · rintro ⟨node, shard, held⟩
    exact (orderly_arranged orderly table).complete node shard entry.1 entry.2 held

-- Node by node or shard by shard, these are the same records.
theorem placed_perm_listed (orderly : store.Orderly) (table : TableId) :
    (store.tableRecords table).Perm (store.listedRecords table) := by
  have nodup := List.Nodup.of_map _ (orderly_arranged orderly table).single
  have nodup' : (store.listedRecords table).Nodup :=
    (listed_ascending orderly table).imp fun less same => UInt64.ne_of_lt less (congrArg Prod.fst same)
  refine (List.perm_ext_iff_of_nodup nodup nodup').mpr fun entry => ?_
  rw [mem_placed orderly, mem_listed orderly]

-- The nodes of a placement, in the order of their numbers.
theorem nodes_ascending (store : Store) : store.nodeIds.Pairwise fun a b => a.index < b.index := by
  rw [nodeIds, List.pairwise_map]
  refine List.pairwise_lt_range.imp_of_mem fun {i j} member member' less => ?_
  have small (i : Nat) (member : i ∈ List.range store.nodes.toNat) : (UInt32.ofNat i).toNat = i :=
    UInt32.toNat_ofNat_of_lt' (Nat.lt_trans (List.mem_range.mp member) store.nodes.toNat_lt)
  rwa [UInt32.lt_iff_toNat_lt, small i member, small j member']

-- A placement gives each shard to the one node that answers for it.
structure Divides (store : Store) (shards : List ShardId) (nodes : List ClusterNode) : Prop where
  ascending : nodes.Pairwise fun a b => a.id.index < b.id.index
  sorted : ∀ node ∈ nodes, node.shards ≠ [] ∧ node.shards.Pairwise (· < ·)
  primary : ∀ node ∈ nodes, ∀ shard ∈ node.shards,
    shard ∈ shards ∧ ∃ others, store.owners shard = .ok (node.id :: others)
  single : ∀ shard ∈ shards, ∃ node ∈ nodes, shard ∈ node.shards ∧ ∀ other ∈ nodes, shard ∈ other.shards → other = node

theorem placed_own {shards : List ShardId} {placed : ClusterNode}
    (among : placed ∈ store.nodeIds.filterMap (store.placed? shards)) :
    placed.id ∈ store.nodeIds ∧ store.placed? shards placed.id = some placed ∧
      placed.shards = shards.filter (fun shard => store.primary? shard == some placed.id) ∧ placed.shards ≠ [] := by
  obtain ⟨node, inside, found⟩ := List.mem_filterMap.mp among
  have known := found
  rw [placed?] at found
  split at found
  · cases found
  · rename_i some
    cases found
    exact ⟨inside, known, rfl, fun none => some (List.isEmpty_iff.mpr none)⟩

-- For each shard that is listed a node answers, the first of its owners.
theorem listed_primary (orderly : store.Orderly) {shard : ShardId} (listed : shard ∈ store.shards table) :
    ∃ primary others, store.primary? shard = some primary ∧ store.owners shard = .ok (primary :: others) := by
  obtain ⟨⟨primary, others, owners⟩, counted⟩ := owned_listed (orderly_owned orderly) listed
  exact ⟨primary, others, primary_first owners, by rw [Store.owners, if_pos counted, owners]⟩

theorem placement_divides (orderly : store.Orderly) (table : TableId) :
    store.Divides (store.shards table) (store.nodeIds.filterMap (store.placed? (store.shards table))) := by
  refine ⟨?_, ?_, ?_, ?_⟩
  · refine (nodes_ascending store).filterMap _ fun a b less placed found placed' found' => ?_
    rw [(serves_own _ a placed found).1, (serves_own _ b placed' found').1]
    exact less
  · intro placed among
    obtain ⟨-, -, own, some⟩ := placed_own among
    exact ⟨some, own ▸ (shards_ascending store table).1.filter _⟩
  · intro placed among shard member
    obtain ⟨-, -, own, -⟩ := placed_own among
    rw [own, List.mem_filter, beq_iff_eq] at member
    obtain ⟨primary, others, answers, counted⟩ := listed_primary orderly member.1
    obtain rfl := Option.some.inj (answers.symm.trans member.2)
    exact ⟨member.1, others, counted⟩
  · intro shard listed
    obtain ⟨primary, -, answers, -⟩ := listed_primary orderly listed
    have inside := ring_inside store orderly.shaped shard primary (primary_owner answers)
    have among : shard ∈ (store.shards table).filter fun shard => store.primary? shard == some primary :=
      List.mem_filter.mpr ⟨listed, beq_iff_eq.mpr answers⟩
    have found : store.placed? (store.shards table) primary = some ⟨primary, _⟩ :=
      if_neg fun none => List.ne_nil_of_mem among (List.isEmpty_iff.mp none)
    refine ⟨_, List.mem_filterMap.mpr ⟨primary, node_among primary inside, found⟩, among, ?_⟩
    intro other member serves
    obtain ⟨-, found', own, -⟩ := placed_own member
    rw [own, List.mem_filter, beq_iff_eq, answers] at serves
    rw [← Option.some.inj serves.2, found] at found'
    exact (Option.some.inj found').symm

-- What is read of a shard on no node in particular.
theorem read_unbound (orderly : store.Orderly) {shard : ShardId} (listed : shard ∈ store.shards table)
    (fields : List String) : store.readShard none table shard fields =
      .ok ((store.shardRecords table shard).map fun entry => recordRow fields entry.1 entry.2) := by
  obtain ⟨primary, others, answers, counted⟩ := listed_primary orderly listed
  rw [← read_alike orderly shard _ counted primary List.mem_cons_self,
    read_owner store shard _ counted primary List.mem_cons_self, shardRecords, answers, Option.map_some, Option.getD_some]

end Store

namespace Source

open Store

variable {store : Store} {table : TableId} {fields : List String} {ctx : Context} {engine : Engine}

-- What a scan hands out.
def scanned (table : TableId) (fields : List String) (ctx : Context) (engine : Engine) : Response :=
  ((scan table fields).guarded.collect ctx engine).1

def rowsOf (fields : List String) (listed : List (RecordId × Record)) : List Row :=
  listed.map fun entry => recordRow fields entry.1 entry.2

theorem scanned_on_node (orderly : engine.store.Orderly) (live : ctx.check engine.clock = .ok ()) {placed : ClusterNode}
    (among : placed ∈ engine.store.nodeIds.filterMap (engine.store.placed? (engine.store.shards table)))
    (bound : ctx.node? = some placed) :
    scanned table fields ctx engine = .ok (rowsOf fields (engine.store.recordsAt table placed.id)) := by
  obtain ⟨inside, found, -⟩ := placed_own among
  obtain ⟨parts, read, whole⟩ := read_own orderly table placed.id (nodes_inside placed.id inside) fields
  rw [scanned, rowsOf, ← whole]
  refine collect_scan engine live parts ?_
  rw [scanShards, bound, Option.map_some]
  dsimp only
  rw [(serves_own _ placed.id placed found).2]
  exact read

theorem scanned_unbound (orderly : engine.store.Orderly) (live : ctx.check engine.clock = .ok ())
    (unbound : ctx.node? = none) :
    scanned table fields ctx engine = .ok (rowsOf fields (engine.store.listedRecords table)) := by
  have read : (scanShards ctx engine.store table).mapM (engine.store.readShard (ctx.node?.map (·.id)) table · fields) =
      .ok ((engine.store.shards table).map fun shard => rowsOf fields (engine.store.shardRecords table shard)) := by
    rw [scanShards, unbound, map_m_ok_iff, List.forall₂_map_right_iff, List.forall₂_same]
    exact fun shard listed => read_unbound orderly listed fields
  rw [scanned, collect_scan engine live _ read, ← List.flatMap_def, rowsOf, listedRecords, List.map_flatMap]
  rfl

theorem table_scanned_once (store : Store) (reached : store.Reached) (table : TableId) :
    ∃ nodes listed parts, store.placement (store.shards table) = .ok nodes ∧ store.Divides (store.shards table) nodes ∧
      (∀ node ∈ nodes, ∀ shard ∈ node.shards, ∀ fields, ∃ rows, store.readShard (some node.id) table shard fields = .ok rows) ∧
      (∀ entry, entry ∈ listed ↔ store.KeptSomewhere table entry) ∧ (listed.Pairwise fun a b => a.1 < b.1) ∧
      parts.flatten.Perm listed ∧
      List.Forall₂ (fun node part => (part.Pairwise fun a b => a.1 < b.1) ∧
        ∀ fields ctx engine, engine.store = store → ctx.node? = some node → ctx.check engine.clock = .ok () →
          scanned table fields ctx engine = .ok (rowsOf fields part)) nodes parts ∧
      ∀ fields ctx engine, engine.store = store → ctx.node? = none → ctx.check engine.clock = .ok () →
        scanned table fields ctx engine = .ok (rowsOf fields listed) := by
  have orderly := reached_orderly reached
  have divides := placement_divides orderly table
  let nodes := store.nodeIds.filterMap (store.placed? (store.shards table))
  have whole : (nodes.map fun placed => store.recordsAt table placed.id).flatten = store.tableRecords table :=
    placed_gathered _ _ _ fun node among => unplaced_empty orderly table node (nodes_inside node among)
  refine ⟨nodes, store.listedRecords table, _, ?_, divides, ?_, mem_listed orderly, listed_ascending orderly table,
    whole ▸ placed_perm_listed orderly table, ?_, ?_⟩
  · exact placement_eq _ fun shard listed => (owned_listed (orderly_owned orderly) listed).2
  · intro node among shard member fields
    obtain ⟨-, others, counted⟩ := divides.primary node among shard member
    exact ⟨_, read_owner store shard _ counted node.id List.mem_cons_self table fields⟩
  · rw [List.forall₂_map_right_iff, List.forall₂_same]
    refine fun placed among => ⟨records_ascending orderly table placed.id, ?_⟩
    rintro fields ctx engine rfl bound live
    exact scanned_on_node orderly live among bound
  · rintro fields ctx engine rfl unbound live
    exact scanned_unbound orderly live unbound

-- Two shards on three nodes, each on two of them; the last node answers for none.
def sparseTable : Store := StoreRequest.performAll (make 3 2 10 0)
  [.importRows ⟨⟨1⟩, 0, [⟨3, [], [("a", .int 1)]⟩]⟩ true, .importRows ⟨⟨1⟩, 1, [⟨15, [], []⟩, ⟨11, [], []⟩]⟩ false]

theorem sparse_table_scanned_once : sparseTable.Reached ∧
    sparseTable.placement (sparseTable.shards ⟨1⟩) = .ok [⟨⟨0⟩, [0]⟩, ⟨⟨1⟩, [1]⟩] ∧
    sparseTable.Divides (sparseTable.shards ⟨1⟩) [⟨⟨0⟩, [0]⟩, ⟨⟨1⟩, [1]⟩] ∧
    ∃ listed parts, (∀ entry, entry ∈ listed ↔ sparseTable.KeptSomewhere ⟨1⟩ entry) ∧ parts.flatten.Perm listed ∧
      List.Forall₂ (fun node part => scanned ⟨1⟩ ["_id"] { Context.of "main" with node? := some node }
        { Engine.make .standard 3 with store := sparseTable } = .ok (rowsOf ["_id"] part)) [⟨⟨0⟩, [0]⟩, ⟨⟨1⟩, [1]⟩] parts ∧
      scanned ⟨1⟩ ["_id"] (.of "main") { Engine.make .standard 3 with store := sparseTable } =
        .ok (rowsOf ["_id"] listed) := by
  have reached : sparseTable.Reached := .asked (.asked (.made 3 2 10 0) _) _
  have shards : sparseTable.shards ⟨1⟩ = [0, 1] := shards_of_held [0, 0, 1, 1] (by decide +kernel) (by decide)
  have known : sparseTable.placement (sparseTable.shards ⟨1⟩) = .ok [⟨⟨0⟩, [0]⟩, ⟨⟨1⟩, [1]⟩] := by
    rw [shards]
    decide +kernel
  obtain ⟨nodes, listed, parts, placed, divides, -, members, -, same, onNodes, unbound⟩ :=
    table_scanned_once sparseTable reached ⟨1⟩
  obtain rfl := Except.ok.inj (known.symm.trans placed)
  refine ⟨reached, known, divides, listed, parts, members, same, ?_, unbound _ _ _ rfl rfl rfl⟩
  exact onNodes.imp fun node part both => both.2 _ _ _ rfl rfl rfl

end Source

end ShardQuery
