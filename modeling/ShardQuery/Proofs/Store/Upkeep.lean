import ShardQuery.Proofs.Store.Listing
/-!
Upkeep of the store, whatever is asked of it, logged or not, taken or refused. Main statement: a node has only shards of
its own with only records of theirs, all owners of a shard have it alike and as the accepted requests leave it, the shards
of a table are listed as its records lie, and an import that is refused changes nothing.
-/

set_option autoImplicit false

namespace ShardQuery

-- A change that is asked of the store, and that it may refuse. An import tells whether the log keeps it.
inductive StoreRequest where
  | importRows (entry : LogEntry) (logged : Bool)
  | deleteTable (table : TableId)
  | deleteField (table : TableId) (field : String)

namespace Store

-- Applies the updates on one node after the other, up to the first that has no partition.
def applyEach (table : TableId) (shard : ShardId) (changes : List RowUpdate) : List NodeId → Store → Outcome Unit × Store
  | [], store => (.ok (), store)
  | node :: rest, store =>
      if node.index.toNat < store.partitions.length then
        applyEach table shard changes rest (store.applyOn node table shard changes)
      else (.error (.execution s!"unknown node {node.text}"), store)

-- An import step by step: the checks, then one partition after the other, and the log at last. What was done before a
-- failing step stays done.
def importInPlace (store : Store) (entry : LogEntry) (logged : Bool) : Outcome Unit × Store :=
  match store.checkPlaced entry.shard entry.updates >>= fun _ => store.owners entry.shard with
  | .error e => (.error e, store)
  | .ok owners =>
      match applyEach entry.table entry.shard entry.updates owners store with
      | (.ok (), applied) => (.ok (), if logged then applied.record entry else applied)
      | refused => refused

end Store

namespace StoreRequest

def perform (store : Store) : StoreRequest → Outcome Unit × Store
  | .importRows entry logged => store.importInPlace entry logged
  | .deleteTable table => (.ok (), store.deleteTable table)
  | .deleteField table field => (.ok (), store.deleteField table field)

-- What a request makes of one record of a table, wherever the record lies. An import that does not fit is refused.
def alters (store : Store) (table : TableId) (id : RecordId) (start : Option Record) : StoreRequest → Option Record
  | .importRows entry _ =>
      if table = entry.table ∧ store.Fits entry then Records.recordAfter start (entry.updates.filter (·.id == id)) else start
  | .deleteTable deleted => if table = deleted then none else start
  | .deleteField deleted field => if table = deleted then start.map (·.erase (Text.lower field)) else start

def leaves (store : Store) (requests : List StoreRequest) (table : TableId) (id : RecordId) : Option Record :=
  requests.foldl (alters store table id) none

-- One request after the other, going on after refused ones.
def performAll (store : Store) (requests : List StoreRequest) : Store :=
  requests.foldl (fun store request => (request.perform store).2) store

end StoreRequest

namespace Store

theorem apply_each_all (table : TableId) (shard : ShardId) (changes : List RowUpdate) (nodes : List NodeId) (store : Store)
    (inside : ∀ node ∈ nodes, node.index.toNat < store.partitions.length) :
    applyEach table shard changes nodes store = (.ok (), store.applyOnAll nodes table shard changes) := by
  induction nodes generalizing store with
  | nil => rfl
  | cons node rest ih =>
      have length : (store.applyOn node table shard changes).partitions.length = store.partitions.length :=
        List.length_modify _ _ _
      rw [applyEach, if_pos (inside node List.mem_cons_self)]
      exact ih _ fun other among => length.symm ▸ inside other (List.mem_cons_of_mem _ among)

-- No step fails once the checks are passed, so that an import is made as a whole or not at all.
theorem import_in_place (store : Store) (shaped : store.Shaped) (entry : LogEntry) (logged : Bool) :
    store.importInPlace entry logged =
      match store.importRows entry.table entry.shard entry.updates logged with
      | .ok after => (.ok (), after)
      | .error e => (.error e, store) := by
  unfold importInPlace importRows
  cases checked : store.checkPlaced entry.shard entry.updates with
  | error e => rfl
  | ok _ =>
      cases counted : store.owners entry.shard with
      | error e => rfl
      | ok owners =>
          have ring := owners_ring store entry.shard owners counted
          have inside (node : NodeId) (owner : node ∈ owners) : node.index.toNat < store.partitions.length :=
            shaped.partitioned ▸ ring_inside store shaped entry.shard node (ring ▸ owner)
          have applied := apply_each_all entry.table entry.shard entry.updates owners store inside
          change (match applyEach entry.table entry.shard entry.updates owners store with
            | (.ok (), applied) => _
            | refused => refused) = _
          rw [applied]
          rfl

-- Where a record may lie.
structure Placed (store : Store) (node : NodeId) (shard : ShardId) (id : RecordId) : Prop where
  owner : node ∈ store.ring shard
  counted : shard.toNat + (store.replicas.toNat - 1) < 2 ^ 64
  own : shardOf id store.width = shard

theorem placed_same_shape (store other : Store) (shape : store.SameShape other) (node : NodeId) (shard : ShardId)
    (id : RecordId) (placed : store.Placed node shard id) : other.Placed node shard id :=
  ⟨same_shape_ring store other shape shard ▸ placed.owner, shape.replicas ▸ placed.counted, shape.width ▸ placed.own⟩

-- Every record lies with its owners, and with all of them alike.
structure Orderly (store : Store) : Prop where
  shaped : store.Shaped
  trimmed : ∀ node, (store.partition node).Trimmed
  placed : ∀ node table shard id,
    ((records (store.partition node) table shard).get? id).isSome = true → store.Placed node shard id
  copied : ∀ table shard, ∀ node ∈ store.ring shard, ∀ other ∈ store.ring shard,
    records (store.partition node) table shard = records (store.partition other) table shard

theorem make_orderly (nodes : UInt32) (replicas : Nat) (width fresh : UInt64) :
    (make nodes replicas width fresh).Orderly := by
  have blank (node : NodeId) : (make nodes replicas width fresh).partition node = .empty :=
    replicated_empty _ node.index.toNat
  refine ⟨make_shaped nodes replicas width fresh, ?_, ?_, ?_⟩
  · intro node
    rw [blank]
    exact Partition.empty_trimmed
  · intro node table shard id there
    rw [blank] at there
    cases there
  · intro table shard node _ other _
    rw [blank, blank]

-- A record that is there after updates was there before, or one of them is its own.
theorem update_all_touched (records : Records) (changes : List RowUpdate) (id : RecordId)
    (there : ((records.updateAll changes).get? id).isSome = true) :
    (records.get? id).isSome = true ∨ ∃ change ∈ changes, change.id = id := by
  rw [Records.get?_updateAll] at there
  cases own : changes.filter (·.id == id) with
  | nil =>
      rw [own, Records.record_after_nil] at there
      exact .inl there
  | cons change rest =>
      have among : change ∈ changes.filter (·.id == id) := own ▸ List.mem_cons_self
      obtain ⟨given, same⟩ := List.mem_filter.mp among
      exact .inr ⟨change, given, beq_iff_eq.mp same⟩

variable {store : Store}

theorem import_placed (after : Store) (entry : LogEntry) (logged : Bool) (orderly : store.Orderly)
    (imported : store.importRows entry.table entry.shard entry.updates logged = .ok after) (node : NodeId)
    (table : TableId) (shard : ShardId) (id : RecordId)
    (there : ((records (after.partition node) table shard).get? id).isSome = true) : after.Placed node shard id := by
  obtain ⟨-, shape, -, applied⟩ := import_effect store after entry logged orderly.shaped imported
  have fits := import_fits store after entry logged imported
  have made := import_shaped store after entry logged orderly.shaped imported
  apply placed_same_shape store after shape
  by_cases inside : node.index.toNat < store.nodes.toNat
  · rw [applied node inside] at there
    by_cases owner : node ∈ store.ring entry.shard
    · rw [if_pos owner, Partition.records_apply] at there
      by_cases here : table = entry.table ∧ shard = entry.shard
      · rw [if_pos here] at there
        rcases update_all_touched _ _ _ there with before | ⟨change, given, rfl⟩
        · exact here.2 ▸ orderly.placed node entry.table entry.shard id before
        · exact here.2 ▸ ⟨owner, fits.counted, fits.placed change given⟩
      · rw [if_neg here] at there
        exact orderly.placed node table shard id there
    · rw [if_neg owner] at there
      exact orderly.placed node table shard id there
  · have outside : after.partitions.length ≤ node.index.toNat := by
      rw [made.partitioned, ← shape.nodes]
      exact Nat.le_of_not_lt inside
    rw [partition_outside after node outside] at there
    cases there

theorem import_copied (after : Store) (entry : LogEntry) (logged : Bool) (orderly : store.Orderly)
    (imported : store.importRows entry.table entry.shard entry.updates logged = .ok after) (table : TableId)
    (shard : ShardId) (node : NodeId) (owner : node ∈ after.ring shard) (other : NodeId) (owner' : other ∈ after.ring shard) :
    records (after.partition node) table shard = records (after.partition other) table shard := by
  obtain ⟨-, shape, -, applied⟩ := import_effect store after entry logged orderly.shaped imported
  rw [← same_shape_ring store after shape shard] at owner owner'
  have before := orderly.copied table shard node owner other owner'
  rw [applied node (ring_inside store orderly.shaped shard node owner),
    applied other (ring_inside store orderly.shaped shard other owner')]
  by_cases here : table = entry.table ∧ shard = entry.shard
  · obtain ⟨rfl, rfl⟩ := here
    rw [if_pos owner, if_pos owner', Partition.records_apply, Partition.records_apply, if_pos ⟨rfl, rfl⟩,
      if_pos ⟨rfl, rfl⟩, before]
  · have untouched (node : NodeId) :
        records (if node ∈ store.ring entry.shard then (store.partition node).apply entry.table entry.shard entry.updates
          else store.partition node) table shard = records (store.partition node) table shard := by
      split
      · rw [Partition.records_apply, if_neg here]
      · rfl
    rw [untouched, untouched, before]

-- An owner changes each record of the table by the updates that are its own.
theorem import_record (after : Store) (entry : LogEntry) (logged : Bool) (shaped : store.Shaped)
    (imported : store.importRows entry.table entry.shard entry.updates logged = .ok after) (table : TableId)
    (id : RecordId) (node : NodeId) (owner : node ∈ store.ring (shardOf id store.width)) :
    (records (after.partition node) table (shardOf id store.width)).get? id =
      if table = entry.table then
        Records.recordAfter ((records (store.partition node) table (shardOf id store.width)).get? id)
          (entry.updates.filter (·.id == id))
      else (records (store.partition node) table (shardOf id store.width)).get? id := by
  obtain ⟨-, -, -, applied⟩ := import_effect store after entry logged shaped imported
  rw [applied node (ring_inside store shaped _ node owner)]
  by_cases here : table = entry.table ∧ shardOf id store.width = entry.shard
  · obtain ⟨rfl, own⟩ := here
    rw [own] at owner ⊢
    rw [if_pos rfl, if_pos owner, Partition.records_apply, if_pos ⟨rfl, rfl⟩, Records.get?_updateAll]
  · have elsewhere : records (if node ∈ store.ring entry.shard
        then (store.partition node).apply entry.table entry.shard entry.updates else store.partition node) table
          (shardOf id store.width) = records (store.partition node) table (shardOf id store.width) := by
      split
      · rw [Partition.records_apply, if_neg here]
      · rfl
    rw [elsewhere]
    split
    · rename_i same
      have none : entry.updates.filter (·.id == id) = [] := by
        rw [List.filter_eq_nil_iff]
        intro change among own
        obtain rfl := beq_iff_eq.mp own
        exact here ⟨same, (import_fits store after entry logged imported).placed change among⟩
      rw [none, Records.record_after_nil]
    · rfl

-- Every owner of its shard has a record as it is given.
def Shows (store : Store) (contents : TableId → RecordId → Option Record) : Prop :=
  ∀ table id, ∀ node ∈ store.ring (shardOf id store.width),
    (records (store.partition node) table (shardOf id store.width)).get? id = contents table id

theorem make_shows (nodes : UInt32) (replicas : Nat) (width fresh : UInt64) :
    (make nodes replicas width fresh).Shows fun _ _ => none := by
  intro table id node _
  have blank : (make nodes replicas width fresh).partition node = .empty := replicated_empty _ node.index.toNat
  rw [blank]
  rfl

theorem perform_shows (request : StoreRequest) (shaped : store.Shaped) (contents : TableId → RecordId → Option Record)
    (shows : store.Shows contents) :
    (request.perform store).2.Shows fun table id => request.alters store table id (contents table id) := by
  cases request with
  | importRows entry logged =>
      rw [StoreRequest.perform, import_in_place store shaped]
      by_cases fits : store.Fits entry
      · obtain ⟨after, imported⟩ : ∃ after, store.importRows entry.table entry.shard entry.updates logged = .ok after :=
          ⟨_, fits_import store entry logged fits⟩
        obtain ⟨-, shape, -⟩ := import_effect store after entry logged shaped imported
        rw [imported]
        intro table id node owner
        change node ∈ after.ring (shardOf id after.width) at owner
        change (records (after.partition node) table (shardOf id after.width)).get? id = _
        rw [← shape.width] at owner ⊢
        rw [← same_shape_ring store after shape] at owner
        rw [import_record after entry logged shaped imported table id node owner, shows table id node owner]
        simp only [StoreRequest.alters, fits, and_true]
      · cases imported : store.importRows entry.table entry.shard entry.updates logged with
        | ok after => exact absurd (import_fits store after entry logged imported) fits
        | error e =>
            intro table id
            simp only [StoreRequest.alters, fits, and_false, if_false]
            exact shows table id
  | deleteTable deleted =>
      intro table id node owner
      change (records ((store.deleteTable deleted).partition node) table (shardOf id store.width)).get? id =
        if table = deleted then none else contents table id
      rw [delete_table_partition, Partition.records_delete_table, ← shows table id node owner]
      split
      · rfl
      · rfl
  | deleteField deleted field =>
      intro table id node owner
      change (records ((store.deleteField deleted field).partition node) table (shardOf id store.width)).get? id =
        if table = deleted then (contents table id).map (·.erase (Text.lower field)) else contents table id
      rw [delete_field_partition, Partition.records_delete_field, ← shows table id node owner]
      split
      · rw [SortedMap.get?_mapItems]
      · rfl

theorem import_orderly (after : Store) (entry : LogEntry) (logged : Bool) (orderly : store.Orderly)
    (imported : store.importRows entry.table entry.shard entry.updates logged = .ok after) : after.Orderly :=
  ⟨import_shaped store after entry logged orderly.shaped imported,
    import_trimmed store after entry logged orderly.shaped orderly.trimmed imported,
    import_placed after entry logged orderly imported, import_copied after entry logged orderly imported⟩

theorem delete_table_orderly (deleted : TableId) (orderly : store.Orderly) : (store.deleteTable deleted).Orderly := by
  refine ⟨delete_table_shaped store deleted orderly.shaped, ?_, ?_, ?_⟩
  · intro node
    rw [delete_table_partition]
    exact Partition.delete_table_trimmed _ _ (orderly.trimmed node)
  · intro node table shard id there
    rw [delete_table_partition, Partition.records_delete_table] at there
    apply placed_same_shape store (store.deleteTable deleted) ⟨rfl, rfl, rfl⟩
    split at there
    · cases there
    · exact orderly.placed node table shard id there
  · intro table shard node owner other owner'
    rw [delete_table_partition, delete_table_partition, Partition.records_delete_table, Partition.records_delete_table,
      orderly.copied table shard node owner other owner']

theorem delete_field_orderly (deleted : TableId) (name : String) (orderly : store.Orderly) :
    (store.deleteField deleted name).Orderly := by
  refine ⟨delete_field_shaped store deleted name orderly.shaped, ?_, ?_, ?_⟩
  · intro node
    rw [delete_field_partition]
    exact Partition.delete_field_trimmed _ _ _ (orderly.trimmed node)
  · intro node table shard id there
    rw [delete_field_partition, Partition.records_delete_field] at there
    apply placed_same_shape store (store.deleteField deleted name) ⟨rfl, rfl, rfl⟩
    split at there
    · rw [SortedMap.get?_mapItems, Option.isSome_map] at there
      exact orderly.placed node table shard id there
    · exact orderly.placed node table shard id there
  · intro table shard node owner other owner'
    rw [delete_field_partition, delete_field_partition, Partition.records_delete_field, Partition.records_delete_field,
      orderly.copied table shard node owner other owner']

theorem perform_orderly (request : StoreRequest) (orderly : store.Orderly) :
    (request.perform store).2.Orderly ∧ store.SameShape (request.perform store).2 := by
  cases request with
  | importRows entry logged =>
      rw [StoreRequest.perform, import_in_place store orderly.shaped]
      cases imported : store.importRows entry.table entry.shard entry.updates logged with
      | error e => exact ⟨orderly, rfl, rfl, rfl⟩
      | ok after =>
          obtain ⟨-, shape, -⟩ := import_effect store after entry logged orderly.shaped imported
          exact ⟨import_orderly after entry logged orderly imported, shape⟩
  | deleteTable table => exact ⟨delete_table_orderly table orderly, rfl, rfl, rfl⟩
  | deleteField table field => exact ⟨delete_field_orderly table field orderly, rfl, rfl, rfl⟩

theorem alters_same_shape {other : Store} (shape : store.SameShape other) (request : StoreRequest) (table : TableId)
    (id : RecordId) (start : Option Record) : request.alters other table id start = request.alters store table id start := by
  cases request with
  | importRows entry logged =>
      have fits : other.Fits entry ↔ store.Fits entry :=
        ⟨fits_same_shape other store entry ⟨shape.nodes.symm, shape.replicas.symm, shape.width.symm⟩,
          fits_same_shape store other entry shape⟩
      simp only [StoreRequest.alters, fits]
  | deleteTable deleted => rfl
  | deleteField deleted field => rfl

theorem perform_all_orderly (store : Store) (requests : List StoreRequest) (orderly : store.Orderly) :
    (StoreRequest.performAll store requests).Orderly ∧ store.SameShape (StoreRequest.performAll store requests) := by
  induction requests generalizing store with
  | nil => exact ⟨orderly, rfl, rfl, rfl⟩
  | cons request requests ih =>
      obtain ⟨kept, shape⟩ := perform_orderly request orderly
      obtain ⟨later, shape'⟩ := ih (request.perform store).2 kept
      exact ⟨later, same_shape_trans _ _ _ shape shape'⟩

theorem perform_all_shows (store : Store) (requests : List StoreRequest) (orderly : store.Orderly)
    (contents : TableId → RecordId → Option Record) (shows : store.Shows contents) :
    (StoreRequest.performAll store requests).Shows fun table id =>
      requests.foldl (StoreRequest.alters store table id) (contents table id) := by
  induction requests generalizing store contents with
  | nil => exact shows
  | cons request requests ih =>
      obtain ⟨kept, shape⟩ := perform_orderly request orderly
      have shown := ih (request.perform store).2 kept _ (perform_shows request orderly.shaped contents shows)
      have alike (table : TableId) (id : RecordId) :
          StoreRequest.alters (request.perform store).2 table id = StoreRequest.alters store table id :=
        funext fun start => funext fun later => alters_same_shape shape later table id start
      simp only [alike] at shown
      exact shown

-- A record that comes and goes within one import leaves no shard behind, and a misplaced one is refused.
example : (StoreRequest.performAll (make 3 2 10 0)
    [.importRows ⟨⟨1⟩, 0, [⟨3, [], [("a", .int 1)]⟩, ⟨3, ["_ID"], []⟩]⟩ true, .importRows ⟨⟨1⟩, 2, [⟨25, [], []⟩]⟩ false,
      .importRows ⟨⟨1⟩, 1, [⟨30, [], []⟩]⟩ true]).partitions.map SortedMap.keys =
        [[⟨⟨1⟩, 2⟩], [], [⟨⟨1⟩, 2⟩]] := by
  decide +kernel

theorem held_placed (orderly : store.Orderly) (node : NodeId) (key : ShardKey) (held : Records)
    (found : (store.partition node).get? key = some held) (id : RecordId) (record : Record)
    (recorded : held.get? id = some record) : store.Placed node key.shard id := by
  apply orderly.placed node key.table key.shard id
  rw [records, found]
  exact Option.isSome_iff_exists.mpr ⟨record, recorded⟩

-- Every node holds shards of its own only, whose numbers leave room for those of all their owners.
structure Owned (store : Store) : Prop where
  shaped : store.Shaped
  owner : ∀ node key, ((store.partition node).get? key).isSome = true → node ∈ store.ring key.shard
  counted : ∀ node key, ((store.partition node).get? key).isSome = true →
    key.shard.toNat + (store.replicas.toNat - 1) < 2 ^ 64

theorem orderly_owned (orderly : store.Orderly) : store.Owned := by
  have somewhere (node : NodeId) (key : ShardKey) (held : ((store.partition node).get? key).isSome = true) :
      ∃ id, store.Placed node key.shard id := by
    obtain ⟨kept, found⟩ := Option.isSome_iff_exists.mp held
    obtain ⟨id, record, recorded⟩ := Partition.held_filled _ (orderly.trimmed node) key kept found
    exact ⟨id, held_placed orderly node key kept found id record recorded⟩
  exact ⟨orderly.shaped, fun node key held => (somewhere node key held).choose_spec.owner,
    fun node key held => (somewhere node key held).choose_spec.counted⟩

theorem owned_listed (owned : store.Owned) {table : TableId} {shard : ShardId} (listed : shard ∈ store.shards table) :
    (∃ primary others, store.ring shard = primary :: others) ∧ shard.toNat + (store.replicas.toNat - 1) < 2 ^ 64 := by
  obtain ⟨partition, among, held⟩ := ((shards_ascending store table).2 shard).mp listed
  obtain ⟨node, -, rfl⟩ := (partition_among owned.shaped partition).mp among
  refine ⟨List.exists_cons_of_ne_nil (List.ne_nil_of_mem (owned.owner node ⟨table, shard⟩ held)), ?_⟩
  exact owned.counted node ⟨table, shard⟩ held

-- Whoever of the owners is asked, the answer is that of the primary.
theorem read_alike (orderly : store.Orderly) (shard : ShardId) (owners : List NodeId)
    (counted : store.owners shard = .ok owners) (owner : NodeId) (among : owner ∈ owners) (table : TableId)
    (fields : List String) : store.readShard (some owner) table shard fields = store.readShard none table shard fields := by
  have ring := owners_ring store shard owners counted
  obtain ⟨primary, others, rfl⟩ := List.exists_cons_of_ne_nil (List.ne_nil_of_mem among)
  have same := orderly.copied table shard owner (ring ▸ among) primary (ring ▸ List.mem_cons_self)
  rw [read_owner store shard _ counted owner among, same]
  unfold readShard
  rw [counted]
  rfl

-- Whether some node has the record, in whatever shard.
def Has (store : Store) (table : TableId) (id : RecordId) : Prop :=
  ∃ partition ∈ store.partitions, ∃ shard, ((records partition table shard).get? id).isSome = true

theorem listed_has (orderly : store.Orderly) (table : TableId) (shard : ShardId) :
    shard ∈ store.shards table ↔ ∃ id, store.Has table id ∧ shardOf id store.width = shard := by
  rw [(shards_ascending store table).2]
  constructor
  · rintro ⟨partition, among, found⟩
    obtain ⟨node, -, rfl⟩ := (partition_among orderly.shaped partition).mp among
    obtain ⟨held, found⟩ := Option.isSome_iff_exists.mp found
    obtain ⟨id, record, recorded⟩ := Partition.held_filled _ (orderly.trimmed node) ⟨table, shard⟩ held found
    refine ⟨id, ⟨store.partition node, among, shard, ?_⟩, ?_⟩
    · rw [records, found]
      exact Option.isSome_iff_exists.mpr ⟨record, recorded⟩
    · exact (held_placed orderly node ⟨table, shard⟩ held found id record recorded).own
  · rintro ⟨id, ⟨partition, among, shard', there⟩, own⟩
    obtain ⟨node, -, rfl⟩ := (partition_among orderly.shaped partition).mp among
    have same : shard' = shard := (orderly.placed node table shard' id there).own.symm.trans own
    refine ⟨store.partition node, among, ?_⟩
    rw [same, records] at there
    cases found : (store.partition node).get? ⟨table, shard⟩ with
    | some held => rfl
    | none =>
        rw [found] at there
        cases there

theorem taken_iff_fits (shaped : store.Shaped) (entry : LogEntry) (logged : Bool) :
    ((StoreRequest.importRows entry logged).perform store).1 = .ok () ↔ store.Fits entry := by
  rw [StoreRequest.perform, import_in_place store shaped]
  constructor
  · intro taken
    cases imported : store.importRows entry.table entry.shard entry.updates logged with
    | ok after => exact import_fits store after entry logged imported
    | error e =>
        rw [imported] at taken
        cases taken
  · intro fits
    rw [fits_import store entry logged fits]

theorem refused_unchanged (shaped : store.Shaped) (entry : LogEntry) (logged : Bool) (e : EngineError)
    (refused : ((StoreRequest.importRows entry logged).perform store).1 = .error e) :
    ((StoreRequest.importRows entry logged).perform store).2 = store := by
  rw [StoreRequest.perform, import_in_place store shaped] at refused ⊢
  cases imported : store.importRows entry.table entry.shard entry.updates logged with
  | error _ => rfl
  | ok after =>
      rw [imported] at refused
      cases refused

theorem requests_keep_order (nodes : UInt32) (replicas : Nat) (width fresh : UInt64) (requests : List StoreRequest) :
    let store := StoreRequest.performAll (make nodes replicas width fresh) requests
    (make nodes replicas width fresh).SameShape store ∧
    (∀ node key held, (store.partition node).get? key = some held →
      (∃ owners, store.owners key.shard = .ok owners ∧ node ∈ owners) ∧ (∃ id record, held.get? id = some record) ∧
        ∀ id record, held.get? id = some record → shardOf id store.width = key.shard) ∧
    (∀ table id, ∀ node ∈ store.ring (shardOf id store.width),
      (records (store.partition node) table (shardOf id store.width)).get? id =
        StoreRequest.leaves (make nodes replicas width fresh) requests table id) ∧
    (∀ shard owners, store.owners shard = .ok owners → ∀ owner ∈ owners, ∀ table,
      (∀ other ∈ owners, records (store.partition owner) table shard = records (store.partition other) table shard) ∧
        ∀ fields, store.readShard (some owner) table shard fields = store.readShard none table shard fields) ∧
    (∀ table, (store.shards table).Pairwise (fun a b => a < b) ∧
      ∀ shard, shard ∈ store.shards table ↔ ∃ id, store.Has table id ∧ shardOf id store.width = shard) ∧
    (∀ entry logged, ((StoreRequest.importRows entry logged).perform store).1 = .ok () ↔ store.Fits entry) ∧
    ∀ entry logged e, ((StoreRequest.importRows entry logged).perform store).1 = .error e →
      ((StoreRequest.importRows entry logged).perform store).2 = store := by
  intro store
  have begun := make_orderly nodes replicas width fresh
  obtain ⟨orderly, shape⟩ : store.Orderly ∧ _ := perform_all_orderly _ requests begun
  refine ⟨shape, ?_, ?_, ?_, ?_, taken_iff_fits orderly.shaped, ?_⟩
  · intro node key held found
    obtain ⟨id, record, recorded⟩ := Partition.held_filled _ (orderly.trimmed node) key held found
    have placed := held_placed orderly node key held found
    have somewhere := placed id record recorded
    refine ⟨⟨store.ring key.shard, if_pos somewhere.counted, somewhere.owner⟩, ⟨id, record, recorded⟩, ?_⟩
    intro other kept recorded'
    exact (placed other kept recorded').own
  · exact perform_all_shows _ requests begun _ (make_shows nodes replicas width fresh)
  · intro shard owners counted owner among table
    refine ⟨?_, read_alike orderly shard owners counted owner among table⟩
    obtain rfl := owners_ring store shard owners counted
    intro other among'
    exact orderly.copied table shard owner among other among'
  · exact fun table => ⟨(shards_ascending store table).1, listed_has orderly table⟩
  · exact refused_unchanged orderly.shaped

end Store

end ShardQuery
