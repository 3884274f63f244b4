import Mathlib.Data.List.Induction
import Mathlib.Logic.Relation
import ShardQuery.Engine.Run
import ShardQuery.Proofs.Cursor.Drain
import ShardQuery.Proofs.Cursor.Reading
import ShardQuery.Proofs.Stepwise
/-!
What statements do to the engine. Main statement: a run is a succession of a few kinds of effects of the compiled
plan, each told with all that was checked before it.
-/

set_option autoImplicit false

namespace ShardQuery

-- An engine, and the imports that its store was ever given, less those of dropped tables.
structure Tracked where
  engine : Engine
  written : List LogEntry

namespace Tracked

def withoutTable (written : List LogEntry) (table : Table) : List LogEntry := written.filter (·.table != table.id)

end Tracked

-- Whether a plan makes a database or changes its options.
def Plan.setsUp : Plan → Bool
  | .createDatabase .. | .alterDatabase .. => true
  | _ => false

-- One effect of a plan.
inductive Effect (plan : Plan) (before : Tracked) : Tracked → Prop
  | unrecorded (desk : TransactionDesk) (warnings : List (Channel × String)) (channels : Nat) :
      Effect plan before
        ⟨{ before.engine with store := { before.engine.store with desk }, warnings, channels }, before.written⟩
  | databases (databases : SortedMap DatabaseId Database) (planned : plan.setsUp = true)
      (named : ∀ id database, databases.get? id = some database →
        database.id = id ∨ ∃ old, before.engine.catalog.databases.get? id = some old ∧ old.id = database.id) :
      Effect plan before
        ⟨{ before.engine with catalog := { before.engine.catalog with databases } }, before.written⟩
  | databaseDropped (name : String) (ifExists : Bool) (tables : List Table) (catalog : Catalog)
      (planned : plan = .dropDatabase name ifExists)
      (listed : before.engine.catalog.tableList name = .ok tables)
      (dropped : before.engine.catalog.dropDatabase name = .ok catalog) :
      Effect plan before
        ⟨{ before.engine with
            catalog, store := tables.foldl (fun store table => store.deleteTable table.id) before.engine.store },
          tables.foldl Tracked.withoutTable before.written⟩
  | tableMade (database name : String) (ifNotExists : Bool) (fields : List Field) (description : Option String)
      (table : Table) (catalog : Catalog) (planned : plan = .createTable database name ifNotExists fields description)
      (made : before.engine.catalog.createTable database name fields description = .ok (table, catalog)) :
      Effect plan before ⟨{ before.engine with catalog }, before.written⟩
  | tableDropped (database name : String) (ifExists : Bool) (table : Table) (catalog : Catalog)
      (planned : plan = .dropTable database name ifExists)
      (dropped : before.engine.catalog.dropTable database name = .ok (table, catalog)) :
      Effect plan before
        ⟨{ before.engine with catalog, store := before.engine.store.deleteTable table.id },
          Tracked.withoutTable before.written table⟩
  | fieldAdded (database name : String) (column : Field) (table : Table) (catalog : Catalog)
      (planned : plan = .alterTable database name (.addColumn column))
      (found : before.engine.catalog.tableNamed database name = .ok table)
      (checked : checkAddColumn before.engine.holdsRows table column = .ok ())
      (added : before.engine.catalog.createField database name column = .ok catalog) :
      Effect plan before ⟨{ before.engine with catalog }, before.written⟩
  | fieldDropped (database name column : String) (table : Table) (catalog : Catalog)
      (planned : plan = .alterTable database name (.dropColumn column))
      (found : before.engine.catalog.tableNamed database name = .ok table)
      (dropped : before.engine.catalog.dropField database name column = .ok catalog) :
      Effect plan before
        ⟨{ before.engine with catalog, store := before.engine.store.deleteField table.id column }, before.written⟩
  | imported (insertion : InsertPlan) (width : UInt64) (all changes : List RowUpdate) (shard : ShardId) (store : Store)
      (planned : plan = .insert insertion) (made : insertion.updates width = .ok all)
      (among : ∀ change ∈ changes, change ∈ all)
      (taken : before.engine.store.importRows insertion.table shard changes true = .ok store) :
      Effect plan before ⟨{ before.engine with store }, before.written ++ [⟨insertion.table, shard, changes⟩]⟩

namespace Engine

-- What effects of a plan lead from one engine to another, whatever was written before.
def Becomes (plan : Plan) (a b : Engine) : Prop :=
  ∀ written, ∃ later, Relation.ReflTransGen (Effect plan) ⟨a, written⟩ ⟨b, later⟩

variable {plan : Plan}

theorem becomes_refl (engine : Engine) : Becomes plan engine engine := fun written => ⟨written, .refl⟩

theorem becomes_trans (a b c : Engine) (first : Becomes plan a b) (second : Becomes plan b c) : Becomes plan a c := by
  intro written
  obtain ⟨between, reached⟩ := first written
  obtain ⟨later, reached'⟩ := second between
  exact ⟨later, reached.trans reached'⟩

theorem becomes_unrecorded (engine : Engine) (desk : TransactionDesk) (warnings : List (Channel × String))
    (channels : Nat) :
    Becomes plan engine { engine with store := { engine.store with desk }, warnings, channels } :=
  fun _ => ⟨_, .single (.unrecorded desk warnings channels)⟩

theorem becomes_alike (a b : Engine) (alike : a.Alike b) : Becomes plan a b := by
  obtain ⟨warnings, rfl⟩ := alike
  exact becomes_unrecorded a a.store.desk warnings a.channels

theorem perform_change_catalog (change : Catalog → Catalog.Lookup Catalog) (engine : Engine) :
    (changeCatalog change).perform engine =
      match change engine.catalog with
      | .ok catalog => (.ok (), { engine with catalog })
      | .error cause => (.error (.catalog cause), engine) := by
  rw [changeCatalog, Step.perform_bind, Step.perform_get]
  dsimp only
  cases change engine.catalog with
  | ok catalog => rfl
  | error cause => rfl

theorem perform_change_store (change : Store → Outcome Store) (engine : Engine) :
    (changeStore change).perform engine =
      match change engine.store with
      | .ok store => (.ok (), { engine with store })
      | .error e => (.error e, engine) := by
  rw [changeStore, Step.perform_bind, Step.perform_get]
  dsimp only
  rw [Step.perform_bind, Step.perform_ofOutcome]
  cases change engine.store with
  | ok store => rfl
  | error e => rfl

theorem perform_ask_catalog {α : Type} (question : Catalog → Catalog.Lookup α) (engine : Engine) :
    (askCatalog question).perform engine = ((question engine.catalog).mapError .catalog, engine) := by
  rw [askCatalog, Step.perform_bind, Step.perform_get]
  dsimp only
  cases question engine.catalog with
  | ok answer => rfl
  | error cause => rfl

theorem at_desk_within {α : Type} (step : Step TransactionDesk α) : (atDesk step).Within (Becomes plan) := by
  intro engine
  exact becomes_unrecorded engine (step.perform engine.store.desk).2 engine.warnings engine.channels

theorem tolerating_within (tolerated : CatalogError) (step : Step Engine Unit) (within : step.Within (Becomes plan)) :
    (tolerating tolerated step).Within (Becomes plan) := by
  intro engine
  have reached := within engine
  rw [tolerating, Step.perform_tryCatch]
  split
  · rename_i performed
    rwa [performed] at reached
  · rename_i performed
    rw [performed] at reached
    split
    · exact reached
    · exact reached

theorem attempt_within {α : Type} (step : Step Engine α) (within : step.Within (Becomes plan)) :
    step.attempt.Within (Becomes plan) := within

theorem database_named_found {catalog : Catalog} {name : String} {database : Database}
    (found : catalog.databaseNamed name = .ok database) : catalog.databases.get? (.ofName name) = some database := by
  rw [Catalog.databaseNamed] at found
  split at found
  · rename_i held
    rw [held, Except.ok.inj found]
  · cases found

theorem create_database_within (name : String) (options : SortedMap String String) (planned : plan.setsUp = true) :
    (createDatabase name options).Within (Becomes plan) := by
  intro engine
  rw [createDatabase, perform_change_catalog]
  split
  · rename_i catalog made
    by_cases taken : engine.catalog.databases.contains (Database.named name options).id = true
    · rw [Catalog.createDatabase, if_pos taken] at made
      cases made
    · rw [Catalog.createDatabase, if_neg taken] at made
      cases made
      refine fun written => ⟨written, .single (.databases _ planned ?_)⟩
      intro id database found
      rw [SortedMap.get?_insert] at found
      split at found
      · rename_i same
        cases found
        exact .inl same.symm
      · exact .inr ⟨database, found, rfl⟩
  · exact becomes_refl engine

theorem set_option_within (name option setting : String) (planned : plan.setsUp = true) :
    (changeCatalog (·.setOption name option setting)).Within (Becomes plan) := by
  intro engine
  rw [perform_change_catalog]
  split
  · rename_i catalog made
    rw [Catalog.setOption] at made
    cases named : engine.catalog.databaseNamed name with
    | error cause =>
        rw [named] at made
        cases made
    | ok database =>
        have held := database_named_found named
        rw [named] at made
        cases made
        refine fun written => ⟨written, .single (.databases _ planned ?_)⟩
        intro id changed found
        rw [SortedMap.get?_insert] at found
        split at found
        · rename_i same
          cases found
          exact .inr ⟨database, same ▸ held, rfl⟩
        · exact .inr ⟨changed, found, rfl⟩
  · exact becomes_refl engine

theorem drop_database_within (name : String) (ifExists : Bool) (planned : plan = .dropDatabase name ifExists) :
    (dropDatabase name).Within (Becomes plan) := by
  intro engine
  rw [dropDatabase, Step.perform_bind, perform_ask_catalog]
  cases listed : engine.catalog.tableList name with
  | error cause => exact becomes_refl engine
  | ok tables =>
      change Becomes plan engine (Step.perform (changeStore _ >>= fun _ => _) engine).2
      rw [Step.perform_bind, perform_change_store]
      change Becomes plan engine (Step.perform (changeCatalog _) _).2
      rw [perform_change_catalog]
      cases dropped : engine.catalog.dropDatabase name with
      | error cause =>
          rw [Catalog.tableList] at listed
          rw [Catalog.dropDatabase] at dropped
          cases named : engine.catalog.databaseNamed name with
          | error cause =>
              rw [named] at listed
              cases listed
          | ok database =>
              rw [named] at dropped
              cases dropped
      | ok catalog =>
          exact fun written => ⟨_, .single (.databaseDropped name ifExists tables catalog planned listed dropped)⟩

theorem create_table_within (database name : String) (ifNotExists : Bool) (fields : List Field)
    (description : Option String) (planned : plan = .createTable database name ifNotExists fields description) :
    (createTable database name fields description).Within (Becomes plan) := by
  intro engine
  rw [createTable, perform_change_catalog]
  cases made : engine.catalog.createTable database name fields description with
  | error cause => exact becomes_refl engine
  | ok both =>
      obtain ⟨table, catalog⟩ := both
      exact fun written =>
        ⟨written, .single (.tableMade database name ifNotExists fields description table catalog planned made)⟩

theorem drop_table_within (database name : String) (ifExists : Bool)
    (planned : plan = .dropTable database name ifExists) : (dropTable database name).Within (Becomes plan) := by
  intro engine
  rw [dropTable, Step.perform_bind, perform_ask_catalog]
  cases dropped : engine.catalog.dropTable database name with
  | error cause => exact becomes_refl engine
  | ok both =>
      obtain ⟨table, catalog⟩ := both
      exact fun written => ⟨_, .single (.tableDropped database name ifExists table catalog planned dropped)⟩

theorem add_column_within (database name : String) (column : Field)
    (planned : plan = .alterTable database name (.addColumn column)) :
    (changeTable database name (.addColumn column)).Within (Becomes plan) := by
  intro engine
  rw [changeTable, Step.perform_bind, perform_ask_catalog]
  cases found : engine.catalog.tableNamed database name with
  | error cause => exact becomes_refl engine
  | ok table =>
      change Becomes plan engine (Step.perform (get >>= fun _ => _) engine).2
      rw [Step.perform_bind, Step.perform_get]
      change Becomes plan engine (Step.perform (Step.ofOutcome _ >>= fun _ => _) engine).2
      rw [Step.perform_bind, Step.perform_ofOutcome]
      cases checked : checkAddColumn engine.holdsRows table column with
      | error e => exact becomes_refl engine
      | ok u =>
          change Becomes plan engine (Step.perform (changeCatalog _) engine).2
          rw [perform_change_catalog]
          cases added : engine.catalog.createField database name column with
          | error cause => exact becomes_refl engine
          | ok catalog =>
              exact fun written =>
                ⟨written, .single (.fieldAdded database name column table catalog planned found checked added)⟩

theorem drop_column_within (database name column : String)
    (planned : plan = .alterTable database name (.dropColumn column)) :
    (changeTable database name (.dropColumn column)).Within (Becomes plan) := by
  intro engine
  rw [changeTable, Step.perform_bind, perform_ask_catalog]
  cases found : engine.catalog.tableNamed database name with
  | error cause => exact becomes_refl engine
  | ok table =>
      change Becomes plan engine (Step.perform (changeCatalog _ >>= fun _ => _) engine).2
      rw [Step.perform_bind, perform_change_catalog]
      cases dropped : engine.catalog.dropField database name column with
      | error cause => exact becomes_refl engine
      | ok catalog =>
          exact fun written =>
            ⟨written, .single (.fieldDropped database name column table catalog planned found dropped)⟩

end Engine

-- A group has the updates of its shard, in their order.
theorem RowUpdate.get?_by_shard (width : UInt64) (changes : List RowUpdate) (shard : ShardId) :
    (byShard width changes).get? shard =
      let own := changes.filter fun change => shardOf change.id width == shard
      if own.isEmpty then none else some own := by
  induction changes using List.reverseRecOn with
  | nil => rfl
  | append_singleton changes change ih =>
      rw [byShard, List.foldl_append, List.foldl_cons, List.foldl_nil]
      change ((byShard width changes).insert _ (((byShard width changes).get? _).getD [] ++ [change])).get? shard = _
      rw [SortedMap.get?_insert]
      by_cases same : shard = shardOf change.id width
      · subst same
        have own : [change].filter (fun other => shardOf other.id width == shardOf change.id width) = [change] :=
          List.filter_cons_of_pos BEq.rfl
        rw [if_pos rfl, ih, List.filter_append, own]
        cases changes.filter fun other => shardOf other.id width == shardOf change.id width <;> rfl
      · have other : [change].filter (fun other => shardOf other.id width == shard) = [] :=
          List.filter_cons_of_neg (by simpa using Ne.symm same)
        rw [if_neg same, ih, List.filter_append, other, List.append_nil]

theorem RowUpdate.by_shard_group (width : UInt64) (changes : List RowUpdate) {shard : ShardId} {group : List RowUpdate}
    (member : (shard, group) ∈ (byShard width changes).entries) :
    group = changes.filter fun change => shardOf change.id width == shard := by
  have found := (SortedMap.get?_eq_some _ _ _).mpr member
  rw [get?_by_shard] at found
  dsimp only at found
  split at found
  · cases found
  · exact (Option.some.inj found).symm

namespace Engine

theorem import_shards_within {plan : Plan} (watch : Watch) (insertion : InsertPlan) (width : UInt64)
    (all : List RowUpdate) (planned : plan = .insert insertion) (made : insertion.updates width = .ok all)
    (groups : List (ShardId × List RowUpdate)) (among : ∀ group ∈ groups, ∀ change ∈ group.2, change ∈ all) :
    (importShards watch insertion.table groups).Within (Becomes plan) := by
  induction groups with
  | nil => exact becomes_refl
  | cons group groups ih =>
      have rest := ih fun other member => among other (List.mem_cons_of_mem _ member)
      refine Step.bind_within becomes_trans _ _ becomes_refl fun engine => ?_
      refine Step.outcome_bind_within becomes_refl _ _ fun _ _ => ?_
      refine Step.bind_within becomes_trans _ _ ?_ fun _ => rest
      intro engine
      rw [perform_change_store]
      cases taken : engine.store.importRows insertion.table group.1 group.2 true with
      | error e => exact becomes_refl engine
      | ok store =>
          exact fun written => ⟨_, .single (.imported insertion width all group.2 group.1 store planned made
            (among group List.mem_cons_self) taken)⟩

theorem insert_within {plan : Plan} (watch : Watch) (insertion : InsertPlan) (planned : plan = .insert insertion) :
    (insert watch insertion).Within (Becomes plan) := by
  have importing : (importInsert watch insertion).Within (Becomes plan) := by
    refine Step.bind_within becomes_trans _ _ becomes_refl fun engine => ?_
    refine Step.outcome_bind_within becomes_refl _ _ fun all made => ?_
    refine import_shards_within watch insertion engine.config.shardWidth all planned made _ ?_
    intro group member
    rw [RowUpdate.by_shard_group engine.config.shardWidth all member]
    exact fun change inside => (List.mem_filter.mp inside).1
  refine Step.bind_within becomes_trans _ _ becomes_refl fun engine => ?_
  refine Step.bind_within becomes_trans _ _ (at_desk_within _) fun txn => ?_
  refine Step.bind_within becomes_trans _ _ (attempt_within _ importing) fun outcome => ?_
  split
  · exact becomes_refl
  · refine Step.bind_within becomes_trans _ _ (attempt_within _ (at_desk_within _)) fun finished => ?_
    refine Step.outcome_bind_within becomes_refl _ _ fun _ _ => ?_
    intro engine
    cases finished with
    | ok txn => exact becomes_refl engine
    | error e => exact becomes_refl engine

theorem mutate_within (ctx : Context) (plan : Plan) : (mutate ctx plan).Within (Becomes plan) := by
  cases plan with
  | createDatabase name ifNotExists options =>
      have made : (createDatabase name options).Within (Becomes (.createDatabase name ifNotExists options)) :=
        create_database_within name options rfl
      cases ifNotExists with
      | true => exact tolerating_within _ _ made
      | false => exact made
  | dropDatabase name ifExists =>
      have dropped := drop_database_within name ifExists rfl
      cases ifExists with
      | true => exact tolerating_within _ _ dropped
      | false => exact dropped
  | alterDatabase name option setting => exact set_option_within name option setting rfl
  | createTable database name ifNotExists fields description =>
      have made := create_table_within database name ifNotExists fields description rfl
      cases ifNotExists with
      | true => exact tolerating_within _ _ made
      | false => exact made
  | dropTable database name ifExists =>
      have dropped := drop_table_within database name ifExists rfl
      cases ifExists with
      | true => exact tolerating_within _ _ dropped
      | false => exact dropped
  | alterTable database name change =>
      cases change with
      | addColumn column => exact add_column_within database name column rfl
      | dropColumn column => exact drop_column_within database name column rfl
  | insert insertion => exact insert_within (fun _ => ctx.check) insertion rfl
  | scan | values | filter | project | distinct | fanOut | orderBy | limit | showDatabases | showTables | showColumns =>
      exact becomes_refl

end Engine

end ShardQuery
