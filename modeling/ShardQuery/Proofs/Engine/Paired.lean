import ShardQuery.Proofs.Engine.Effects
import ShardQuery.Proofs.Store.Content
/-!
Two engines with the same records, placed in different ways. Main statement: a change that is made to both of them comes
to the same outcome, and leaves both with the same records.
-/

set_option autoImplicit false

namespace ShardQuery

namespace Store

theorem orderly_desk {store : Store} (orderly : store.Orderly) (desk : TransactionDesk) :
    Orderly { store with desk } := by
  refine ⟨⟨orderly.shaped.peopled, orderly.shaped.enough, orderly.shaped.partitioned⟩, orderly.trimmed, ?_, orderly.copied⟩
  intro node table shard id there
  exact placed_same_shape store { store with desk } ⟨rfl, rfl, rfl⟩ node shard id (orderly.placed node table shard id there)

-- A change that makes the same of every record, wherever it is placed, and moves none.
structure Unplaced (change : Store → Store) : Prop where
  alike : ∀ a b : Store, a.Alike b → (change a).Alike (change b)
  orderly : ∀ store : Store, store.Orderly → (change store).Orderly
  shape : ∀ store : Store, store.SameShape (change store)
  desk : ∀ store : Store, (change store).desk = store.desk

theorem unchanged_unplaced : Unplaced id := ⟨fun _ _ => id, fun _ => id, fun _ => ⟨rfl, rfl, rfl⟩, fun _ => rfl⟩

theorem delete_table_unplaced (deleted : TableId) : Unplaced (·.deleteTable deleted) where
  alike a b alike := fun table id => by rw [delete_table_held, delete_table_held, alike]
  orderly _ := delete_table_orderly deleted
  shape _ := ⟨rfl, rfl, rfl⟩
  desk _ := rfl

theorem delete_field_unplaced (deleted : TableId) (name : String) : Unplaced (·.deleteField deleted name) where
  alike a b alike := fun table id => by rw [delete_field_held, delete_field_held, alike]
  orderly _ := delete_field_orderly deleted name
  shape _ := ⟨rfl, rfl, rfl⟩
  desk _ := rfl

theorem delete_tables_unplaced (tables : List Table) :
    Unplaced fun store => tables.foldl (fun store table => store.deleteTable table.id) store := by
  induction tables with
  | nil => exact unchanged_unplaced
  | cons table tables ih =>
      have first := delete_table_unplaced table.id
      refine ⟨fun a b alike => ih.alike _ _ (first.alike a b alike),
        fun store orderly => ih.orderly _ (first.orderly store orderly), fun store => ?_, fun store => ih.desk _⟩
      exact same_shape_trans _ _ _ (first.shape store) (ih.shape _)

end Store

-- How records are placed in a cluster.
structure ClusterShape where
  nodes : UInt32
  replicas : Nat
  -- Record ids that one shard covers.
  width : UInt64

namespace ClusterShape

def configure (shape : ClusterShape) (config : Config) : Config :=
  { config with shardWidth := shape.width, replicas := shape.replicas }

def store (shape : ClusterShape) : Store := .make shape.nodes shape.replicas shape.width 0

-- A new engine over a cluster of the shape.
def engine (shape : ClusterShape) (config : Config) (directories : Directories := PageStore.usableDirectory) : Engine :=
  .make (shape.configure config) shape.nodes directories

-- Shards cover some ids, and 32 bits count some replicas.
structure Sound (shape : ClusterShape) : Prop where
  covers : shape.width ≠ 0
  counts : shape.replicas % 2 ^ 32 ≠ 0

-- The owners of all records that an insert writes can be counted.
def Counts (shape : ClusterShape) (insertion : InsertPlan) : Prop :=
  ∀ changes, insertion.updates shape.width = .ok changes → ∀ change ∈ changes,
    (shardOf change.id shape.width).toNat + (shape.store.replicas.toNat - 1) < 2 ^ 64

-- The owners of all that a plan writes can be counted.
def Takes (shape : ClusterShape) (plan : Plan) : Prop := ∀ insertion, plan = .insert insertion → shape.Counts insertion

-- An engine of the shape, whose records all lie with their owners.
structure Carries (shape : ClusterShape) (config : Config) (engine : Engine) : Prop where
  configured : engine.config = shape.configure config
  placed : shape.store.SameShape engine.store
  orderly : engine.store.Orderly

variable {shape : ClusterShape} {config : Config} {engine : Engine}

theorem sound_copies (sound : shape.Sound) : 0 < shape.store.replicas.toNat := by
  have asked : 0 < (UInt32.ofNat (max shape.replicas 1)).toNat := by
    have some := sound.counts
    rw [UInt32.toNat_ofNat']
    omega
  have capped (copies limit : UInt32) (asked : 0 < copies.toNat) (limited : 0 < limit.toNat) :
      0 < (if copies ≤ limit then copies else limit).toNat := by
    split
    · exact asked
    · exact limited
  exact capped _ _ asked (Store.make_shaped shape.nodes shape.replicas shape.width 0).peopled

theorem sound_width (sound : shape.Sound) : shape.store.width = shape.width := if_neg sound.covers

theorem takes_of_width (wide : 2 ≤ shape.width) (plan : Plan) : shape.Takes plan :=
  fun _ _ _ _ change _ => Store.shard_counted wide change.id _

theorem carries_engine (directories : Directories) : shape.Carries config (shape.engine config directories) :=
  ⟨rfl, ⟨rfl, rfl, rfl⟩, Store.make_orderly shape.nodes shape.replicas shape.width 0⟩

theorem carries_copies (sound : shape.Sound) (carries : shape.Carries config engine) : 0 < engine.store.replicas.toNat :=
  carries.placed.replicas ▸ sound_copies sound

theorem carries_width (sound : shape.Sound) (carries : shape.Carries config engine) :
    engine.config.shardWidth = shape.width ∧ engine.store.width = shape.width := by
  refine ⟨?_, carries.placed.width.symm.trans (sound_width sound)⟩
  rw [carries.configured]
  rfl

theorem carries_store (carries : shape.Carries config engine) {store : Store} (catalog : Catalog)
    (kept : engine.store.SameShape store) (orderly : store.Orderly) : shape.Carries config { engine with catalog, store } :=
  ⟨carries.configured, Store.same_shape_trans _ _ _ carries.placed kept, orderly⟩

end ClusterShape

theorem InsertPlan.updates_of_width (insertion : InsertPlan) {width width' : UInt64} (covers : width ≠ 0)
    (covers' : width' ≠ 0) :
    insertion.updates width = insertion.updates width' := by
  have located {width : UInt64} (covers : width ≠ 0) (change : RowUpdate) :
      (discard (locate change.id width) : Outcome Unit) = .ok () := by
    rw [locate, if_neg covers]
    rfl
  rw [updates, updates]
  simp only [located covers, located covers']

namespace RowUpdate

-- What the groups hold of one record is what was given of it.
theorem by_shard_own (width : UInt64) (changes : List RowUpdate) (id : RecordId) :
    ((byShard width changes).entries.flatMap (·.2)).filter (·.id == id) = changes.filter (·.id == id) := by
  have others (entry : ShardId × List RowUpdate) (member : entry ∈ (byShard width changes).entries)
      (elsewhere : entry.1 ≠ shardOf id width) : entry.2.filter (·.id == id) = [] := by
    rw [by_shard_group width changes member, List.filter_filter, List.filter_eq_nil_iff]
    intro change _ both
    rw [Bool.and_eq_true, beq_iff_eq, beq_iff_eq] at both
    exact elsewhere (both.1 ▸ both.2).symm
  rw [List.filter_flatMap, SortedMap.flat_map_at _ (shardOf id width) _ others, get?_by_shard]
  dsimp only
  have inside : changes.filter (·.id == id) =
      (changes.filter fun change => shardOf change.id width == shardOf id width).filter (·.id == id) := by
    rw [List.filter_filter]
    refine List.filter_congr fun change _ => ?_
    by_cases own : change.id = id
    · rw [own, BEq.rfl, BEq.rfl]
      rfl
    · rw [beq_eq_false_iff_ne.mpr own, Bool.false_and]
  rw [inside]
  split
  · rename_i none
    rw [List.isEmpty_iff.mp none]
    rfl
  · rfl

theorem by_shard_some {width : UInt64} {changes : List RowUpdate} {shard : ShardId} {group : List RowUpdate}
    (member : (shard, group) ∈ (byShard width changes).entries) : ∃ change ∈ changes, shardOf change.id width = shard := by
  have found := (SortedMap.get?_eq_some _ _ _).mpr member
  rw [get?_by_shard] at found
  dsimp only at found
  split at found
  · cases found
  · rename_i some
    obtain ⟨change, inside⟩ := List.exists_mem_of_ne_nil _ (mt List.isEmpty_iff.mpr some)
    obtain ⟨among, own⟩ := List.mem_filter.mp inside
    exact ⟨change, among, beq_iff_eq.mp own⟩

theorem by_shard_none (width : UInt64) (changes : List RowUpdate) :
    (byShard width changes).entries = [] ↔ changes = [] := by
  constructor
  · intro none
    by_contra some
    obtain ⟨change, among⟩ := List.exists_mem_of_ne_nil _ some
    have own := by_shard_own width changes change.id
    rw [none] at own
    have inside : change ∈ changes.filter (·.id == change.id) := List.mem_filter.mpr ⟨among, BEq.rfl⟩
    rw [← own] at inside
    cases inside
  · rintro rfl
    rfl

end RowUpdate

namespace Engine

open ClusterShape

variable {config : Config} {shape shape' : ClusterShape} {engine : Engine}

-- Engines of two shapes with the same catalog, the same records and the same clients at the desk.
structure Paired (config : Config) (shape shape' : ClusterShape) (a b : Engine) : Prop where
  catalog : a.catalog = b.catalog
  gate : a.gate = b.gate
  desk : a.store.desk = b.store.desk
  records : a.store.Alike b.store
  left : shape.Carries config a
  right : shape'.Carries config b

variable {a b : Engine}

theorem make_paired (config : Config) (shape shape' : ClusterShape) (directories directories' : Directories) :
    Paired config shape shape' (shape.engine config directories) (shape'.engine config directories') :=
  ⟨rfl, rfl, rfl, fun _ _ => (Store.make_held _ _ _ _).trans (Store.make_held _ _ _ _).symm, carries_engine directories,
    carries_engine directories'⟩

theorem paired_holds (paired : Paired config shape shape' a b) : a.holdsRows = b.holdsRows := by
  funext table
  rw [holdsRows, holdsRows, Bool.not_inj_iff, Bool.eq_iff_iff, Store.shards_empty_iff paired.left.orderly,
    Store.shards_empty_iff paired.right.orderly]
  simp only [paired.records table]

theorem paired_after (paired : Paired config shape shape' a b) {catalog catalog' : Catalog} (same : catalog = catalog')
    {change : Store → Store} (unplaced : Store.Unplaced change) :
    Paired config shape shape' { a with catalog, store := change a.store }
      { b with catalog := catalog', store := change b.store } where
  catalog := same
  gate := paired.gate
  desk := by rw [unplaced.desk, unplaced.desk, paired.desk]
  records := unplaced.alike _ _ paired.records
  left := carries_store paired.left catalog (unplaced.shape _) (unplaced.orderly _ paired.left.orderly)
  right := carries_store paired.right catalog' (unplaced.shape _) (unplaced.orderly _ paired.right.orderly)

theorem change_catalog_in_step (change : Catalog → Catalog.Lookup Catalog) :
    (changeCatalog change).InStep (Paired config shape shape') (changeCatalog change) := by
  intro a b paired
  rw [perform_change_catalog, perform_change_catalog, ← paired.catalog]
  cases change a.catalog with
  | ok catalog => exact ⟨rfl, paired_after paired rfl Store.unchanged_unplaced⟩
  | error cause => exact ⟨rfl, paired⟩

theorem change_store_in_step {change : Store → Store} (unplaced : Store.Unplaced change) :
    (changeStore fun store => .ok (change store)).InStep (Paired config shape shape')
      (changeStore fun store => .ok (change store)) := by
  intro a b paired
  rw [perform_change_store, perform_change_store]
  exact ⟨rfl, paired_after paired paired.catalog unplaced⟩

theorem ask_catalog_in_step {α : Type} (question : Catalog → Catalog.Lookup α) :
    (askCatalog question).InStep (Paired config shape shape') (askCatalog question) := by
  intro a b paired
  rw [perform_ask_catalog, perform_ask_catalog, paired.catalog]
  exact ⟨rfl, paired⟩

theorem at_desk_in_step {α : Type} (step : Step TransactionDesk α) :
    (atDesk step).InStep (Paired config shape shape') (atDesk step) := by
  intro a b paired
  rw [atDesk, Step.perform_onPart, Step.perform_onPart, paired.desk]
  refine ⟨rfl, paired.catalog, paired.gate, rfl, paired.records, ?_, ?_⟩
  · exact carries_store paired.left a.catalog ⟨rfl, rfl, rfl⟩ (Store.orderly_desk paired.left.orderly _)
  · exact carries_store paired.right b.catalog ⟨rfl, rfl, rfl⟩ (Store.orderly_desk paired.right.orderly _)

theorem tolerating_in_step (tolerated : CatalogError) {step step' : Step Engine Unit}
    (steps : step.InStep (Paired config shape shape') step') :
    (tolerating tolerated step).InStep (Paired config shape shape') (tolerating tolerated step') := by
  refine Step.catch_in_step steps fun e a b paired => ?_
  split
  · exact ⟨rfl, paired⟩
  · exact ⟨rfl, paired⟩

theorem drop_database_in_step (name : String) :
    (dropDatabase name).InStep (Paired config shape shape') (dropDatabase name) := by
  refine Step.bind_in_step (ask_catalog_in_step _) fun tables => ?_
  exact Step.bind_in_step (change_store_in_step (Store.delete_tables_unplaced tables)) fun _ => change_catalog_in_step _

theorem drop_table_in_step (database name : String) :
    (dropTable database name).InStep (Paired config shape shape') (dropTable database name) := by
  refine Step.bind_in_step (ask_catalog_in_step _) fun dropped a b paired => ?_
  exact ⟨rfl, paired_after paired rfl (Store.delete_table_unplaced dropped.1.id)⟩

theorem change_table_in_step (database name : String) (change : TableChange) :
    (changeTable database name change).InStep (Paired config shape shape') (changeTable database name change) := by
  refine Step.bind_in_step (ask_catalog_in_step _) fun table => ?_
  cases change with
  | addColumn column =>
      refine Step.get_bind_in_step fun a b paired => ?_
      rw [paired_holds paired]
      exact Step.bind_in_step (Step.outcome_in_step _) fun _ => change_catalog_in_step _
  | dropColumn column =>
      refine Step.bind_in_step (change_catalog_in_step _) fun _ => ?_
      exact change_store_in_step (Store.delete_field_unplaced table.id column)

section Imports

variable {check : Nat → Outcome Unit} {watch : Watch} {table : TableId}

theorem import_shards_refused (group : ShardId × List RowUpdate) (groups : List (ShardId × List RowUpdate))
    (engine : Engine) {e : EngineError} (stopped : watch group.1 engine.clock = .error e) :
    (importShards watch table (group :: groups)).perform engine = (.error e, engine) := by
  rw [importShards, Step.perform_bind, Step.perform_get]
  change Step.perform (Step.ofOutcome (watch group.1 engine.clock) >>= fun _ => _) engine = _
  rw [Step.perform_bind, Step.perform_ofOutcome, stopped]

theorem import_shards_next (group : ShardId × List RowUpdate) (groups : List (ShardId × List RowUpdate))
    (engine : Engine) (passes : watch group.1 engine.clock = .ok ()) {first : Store}
    (imported : engine.store.importRows table group.1 group.2 true = .ok first) :
    (importShards watch table (group :: groups)).perform engine =
      (importShards watch table groups).perform { engine with store := first } := by
  rw [importShards, Step.perform_bind, Step.perform_get]
  change Step.perform (Step.ofOutcome (watch group.1 engine.clock) >>= fun _ => _) engine = _
  rw [Step.perform_bind, Step.perform_ofOutcome, passes]
  change Step.perform (changeStore _ >>= fun _ => _) engine = _
  rw [Step.perform_bind, perform_change_store, imported]

-- Groups that fit are imported one after the other, and each record is updated by what they hold of it.
theorem import_shards_done (groups : List (ShardId × List RowUpdate)) (engine : Engine) (orderly : engine.store.Orderly)
    (copies : 0 < engine.store.replicas.toNat) (live : check engine.clock = .ok ())
    (fits : ∀ group ∈ groups, engine.store.Fits ⟨table, group.1, group.2⟩) :
    ∃ store, (importShards (fun _ => check) table groups).perform engine = (.ok (), { engine with store }) ∧
      engine.store.SameShape store ∧ store.desk = engine.store.desk ∧ store.Orderly ∧
      ∀ other id, store.held? other id = if other = table then
        Records.recordAfter (engine.store.held? other id) ((groups.flatMap (·.2)).filter (·.id == id))
        else engine.store.held? other id := by
  induction groups generalizing engine with
  | nil =>
      refine ⟨engine.store, rfl, ⟨rfl, rfl, rfl⟩, rfl, orderly, fun other id => ?_⟩
      exact ((if_congr Iff.rfl (Records.record_after_nil _) rfl).trans (ite_self _)).symm
  | cons group groups ih =>
      obtain ⟨fitsFirst, fitsRest⟩ := List.forall_mem_cons.mp fits
      have imported := Store.fits_import engine.store ⟨table, group.1, group.2⟩ true fitsFirst
      generalize (let applied := _; if true = true then Store.record applied _ else applied : Store) = first at imported
      obtain ⟨-, shape, -⟩ := Store.import_effect _ first _ true orderly.shaped imported
      have desk := Store.import_desk _ true imported
      obtain ⟨store, performed, shape', desk', orderly', held⟩ := ih { engine with store := first }
        (Store.import_orderly first _ true orderly imported) (shape.replicas ▸ copies)
        (by rw [clock, desk]; exact live)
        fun other among => Store.fits_same_shape _ _ _ shape (fitsRest other among)
      refine ⟨store, (import_shards_next group groups engine live imported).trans performed,
        Store.same_shape_trans _ _ _ shape shape', desk'.trans desk, orderly', fun other id => ?_⟩
      rw [held, Store.import_held _ true orderly.shaped copies imported]
      by_cases same : other = table
      · rw [if_pos same, if_pos same, if_pos same, List.flatMap_cons, List.filter_append, Records.record_after_append]
      · rw [if_neg same, if_neg same, if_neg same]

theorem groups_fit (table : TableId) (sound : shape.Sound) (carries : shape.Carries config engine) {changes : List RowUpdate}
    (counted : ∀ change ∈ changes,
      (shardOf change.id shape.width).toNat + (shape.store.replicas.toNat - 1) < 2 ^ 64) :
    ∀ group ∈ (RowUpdate.byShard shape.width changes).entries, engine.store.Fits ⟨table, group.1, group.2⟩ := by
  rintro ⟨shard, group⟩ member
  have width := (carries_width sound carries).2
  obtain ⟨change, among, own⟩ := RowUpdate.by_shard_some member
  refine ⟨fun update inside => ?_, ?_⟩
  · dsimp only at inside
    rw [RowUpdate.by_shard_group shape.width changes member] at inside
    rw [width]
    exact beq_iff_eq.mp (List.mem_filter.mp inside).2
  · dsimp only
    rw [← own, ← carries.placed.replicas]
    exact counted change among

theorem import_groups_in_step (sound : shape.Sound) (sound' : shape'.Sound) (changes : List RowUpdate)
    (counted : ∀ change ∈ changes, (shardOf change.id shape.width).toNat + (shape.store.replicas.toNat - 1) < 2 ^ 64)
    (counted' : ∀ change ∈ changes,
      (shardOf change.id shape'.width).toNat + (shape'.store.replicas.toNat - 1) < 2 ^ 64) :
    (importShards (fun _ => check) table (RowUpdate.byShard shape.width changes).entries).InStep
      (Paired config shape shape')
      (importShards (fun _ => check) table (RowUpdate.byShard shape'.width changes).entries) := by
  intro a b paired
  have fits := groups_fit table sound paired.left counted
  have fits' := groups_fit table sound' paired.right counted'
  have same : a.clock = b.clock := congrArg TransactionDesk.clock paired.desk
  cases live : check a.clock with
  | ok u =>
      obtain ⟨store, performed, kept, desk, orderly, held⟩ := import_shards_done _ a paired.left.orderly
        (carries_copies sound paired.left) live fits
      obtain ⟨store', performed', kept', desk', orderly', held'⟩ := import_shards_done _ b paired.right.orderly
        (carries_copies sound' paired.right) (same ▸ live) fits'
      rw [performed, performed']
      refine ⟨rfl, paired.catalog, paired.gate, (desk.trans paired.desk).trans desk'.symm, fun other id => ?_,
        carries_store paired.left a.catalog kept orderly, carries_store paired.right b.catalog kept' orderly'⟩
      rw [held, held', RowUpdate.by_shard_own, RowUpdate.by_shard_own, paired.records other id]
  | error e =>
      by_cases none : changes = []
      · subst none
        exact ⟨rfl, paired⟩
      · obtain ⟨group, groups, some⟩ :=
          List.exists_cons_of_ne_nil (mt (RowUpdate.by_shard_none shape.width changes).mp none)
        obtain ⟨group', groups', some'⟩ :=
          List.exists_cons_of_ne_nil (mt (RowUpdate.by_shard_none shape'.width changes).mp none)
        rw [some, some', import_shards_refused group groups a live, import_shards_refused group' groups' b (same ▸ live)]
        exact ⟨rfl, paired⟩

end Imports

section Inserts

variable {check : Nat → Outcome Unit} {insertion : InsertPlan}

theorem import_insert_in_step (sound : shape.Sound) (sound' : shape'.Sound) (counted : shape.Counts insertion)
    (counted' : shape'.Counts insertion) :
    (importInsert (fun _ => check) insertion).InStep (Paired config shape shape')
      (importInsert (fun _ => check) insertion) := by
  refine Step.get_bind_in_step fun a b paired => ?_
  rw [(carries_width sound paired.left).1, (carries_width sound' paired.right).1]
  dsimp only
  rw [← insertion.updates_of_width sound.covers sound'.covers]
  cases made : insertion.updates shape.width with
  | error e => exact fun _ _ related => ⟨rfl, related⟩
  | ok changes =>
      have made' := (insertion.updates_of_width sound.covers sound'.covers).symm.trans made
      exact import_groups_in_step sound sound' changes (counted changes made) (counted' changes made')

theorem insert_in_step (sound : shape.Sound) (sound' : shape'.Sound) (counted : shape.Counts insertion)
    (counted' : shape'.Counts insertion) :
    (insert (fun _ => check) insertion).InStep (Paired config shape shape') (insert (fun _ => check) insertion) := by
  refine Step.get_bind_in_step fun a b paired => ?_
  rw [paired.left.configured, paired.right.configured]
  refine Step.bind_in_step (at_desk_in_step _) fun txn => ?_
  refine Step.bind_in_step (Step.attempt_in_step (import_insert_in_step sound sound' counted counted')) fun outcome => ?_
  split
  · exact Step.outcome_in_step (.error (.brokeOff _))
  · refine Step.bind_in_step (Step.attempt_in_step (at_desk_in_step _)) fun finished => ?_
    exact Step.bind_in_step (Step.outcome_in_step _) fun _ => Step.bind_in_step (Step.outcome_in_step _) fun _ =>
      Step.outcome_in_step (.ok ())

end Inserts

theorem mutate_in_step (sound : shape.Sound) (sound' : shape'.Sound) (ctx : Context) (turns : List Nat) (plan : Plan)
    (takes : shape.Takes plan) (takes' : shape'.Takes plan) :
    (mutate ctx plan).InStep (Paired config shape shape') (mutate { ctx with turns } plan) := by
  cases plan with
  | createDatabase name ifNotExists options =>
      have made : (createDatabase name options).InStep (Paired config shape shape') (createDatabase name options) :=
        change_catalog_in_step _
      cases ifNotExists with
      | true => exact tolerating_in_step _ made
      | false => exact made
  | dropDatabase name ifExists =>
      cases ifExists with
      | true => exact tolerating_in_step _ (drop_database_in_step name)
      | false => exact drop_database_in_step name
  | alterDatabase name option setting => exact change_catalog_in_step _
  | createTable database name ifNotExists fields description =>
      have made : (createTable database name fields description).InStep (Paired config shape shape')
        (createTable database name fields description) := change_catalog_in_step _
      cases ifNotExists with
      | true => exact tolerating_in_step _ made
      | false => exact made
  | dropTable database name ifExists =>
      cases ifExists with
      | true => exact tolerating_in_step _ (drop_table_in_step database name)
      | false => exact drop_table_in_step database name
  | alterTable database name change => exact change_table_in_step database name change
  | insert insertion => exact insert_in_step sound sound' (takes insertion rfl) (takes' insertion rfl)
  | scan | values | filter | project | distinct | fanOut | orderBy | limit | showDatabases | showTables | showColumns =>
      exact Step.outcome_in_step (.ok ())

end Engine

end ShardQuery
