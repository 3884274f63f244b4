import ShardQuery.Proofs.Engine.Reached
/-!
Columns of one table, and the keys under which they are stored. Main statements: as long as no column is added under
another spelling of one that is there, the columns of a table have keys of their own, and a statement that asks for
two columns under one key is refused.
-/

set_option autoImplicit false

namespace ShardQuery

-- Two columns are stored under different keys.
def Field.Apart (a b : Field) : Prop := Text.lower a.name ≠ Text.lower b.name

def Table.Apart (table : Table) : Prop := table.fields.Pairwise Field.Apart

instance (table : Table) : Decidable table.Apart :=
  inferInstanceAs (Decidable (table.fields.Pairwise fun a b => Text.lower a.name ≠ Text.lower b.name))

theorem Table.same_key {table : Table} (apart : table.Apart) (a b : Field) (among : a ∈ table.fields)
    (among' : b ∈ table.fields) (same : Text.lower a.name = Text.lower b.name) : a = b := by
  by_contra different
  have symmetric : Std.Symm Field.Apart := ⟨fun a b apart same => apart same.symm⟩
  exact List.Pairwise.forall apart among among' different same

def Catalog.Apart (catalog : Catalog) : Prop := ∀ id table, catalog.tables.get? id = some table → table.Apart

theorem Table.field_none {table : Table} {name : String} (none : table.field? name = none) :
    ∀ field ∈ table.fields, Text.same field.name name = false :=
  fun field among => Bool.eq_false_iff.mpr (List.find?_eq_none.mp none field among)

namespace Insertion

variable {table : Table} {targets : List Field} {columns : List String}

theorem targets_listed (targeted : Insertion.targets table columns = .ok targets) :
    ∀ field ∈ targets, field ∈ table.fields := by
  rw [Insertion.targets] at targeted
  split at targeted
  · cases targeted
    exact fun field member => member
  · intro field member
    obtain ⟨name, -, found⟩ := targets_from_found table columns [] targets targeted field member
    exact (Table.field_named found).1

-- What an insertion writes to has keys of its own, whichever way it names them.
theorem targets_apart (apart : table.Apart) (targeted : Insertion.targets table columns = .ok targets) :
    targets.Pairwise Field.Apart := by
  have listed := targets_listed targeted
  rw [Insertion.targets] at targeted
  split at targeted
  · exact Except.ok.inj targeted ▸ apart
  · refine (targets_from_distinct table columns [] targets targeted).2.imp_of_mem fun among among' differ same => ?_
    rw [Table.same_key apart _ _ (listed _ among) (listed _ among') same, Text.same_refl] at differ
    cases differ

end Insertion

-- Whether a plan that adds a column leaves those of its table apart.
def Plan.KeepsApart (catalog : Catalog) : Plan → Prop
  | .alterTable database name (.addColumn column) => ∀ table, catalog.tableNamed database name = .ok table →
      table.field? column.name = none → ∀ field ∈ table.fields, field.Apart column
  | _ => True

namespace Statement

-- Whether a statement asks for a column that is to be stored under the key of another one.
def Doubles (scope : Scope) : Statement → Prop
  | .createTable _ _ columns _ => ¬ columns.Pairwise Field.Apart
  | .alterTable name (.addColumn column) => ∃ table, scope.table name = .ok table ∧
      ∃ field ∈ table.fields, ¬ field.Apart column
  | _ => False

-- Whether the column that is added is another one only by the case of letters outside of ASCII.
def Respells (scope : Scope) : Statement → Prop
  | .alterTable name (.addColumn column) => ∃ table, scope.table name = .ok table ∧
      (∃ field ∈ table.fields, ¬ field.Apart column) ∧
        ∀ field ∈ table.fields, Text.same field.name column.name = false
  | _ => False

variable {scope : Scope} {statement : Statement} {plan : Plan}

theorem added_new {name : String} {column : Field} {table : Table} (found : scope.table name = .ok table)
    (compiled : CompilesTo scope (.alterTable name (.addColumn column)) plan) : table.field? column.name = none := by
  cases compiled with
  | reading _ _ asks => cases asks
  | alterTable _ _ other found' checked =>
      obtain rfl : table = other := Except.ok.inj (found.symm.trans found')
      rw [TableChange.check] at checked
      cases held : table.field? column.name with
      | none => rfl
      | some field =>
          rw [held] at checked
          cases checked

theorem doubling_respells (compiled : statement.CompilesTo scope plan) (doubles : statement.Doubles scope) :
    statement.Respells scope := by
  cases statement with
  | createTable name ifNotExists columns description =>
      cases compiled with
      | reading _ _ asks => cases asks
      | createTable _ _ _ _ valid => exact absurd (Table.valid_apart valid) doubles
  | alterTable name change =>
      cases change with
      | addColumn column =>
          obtain ⟨table, found, doubled⟩ := doubles
          exact ⟨table, found, doubled, Table.field_none (added_new found compiled)⟩
      | dropColumn column => exact doubles.elim
  | _ => exact doubles.elim

theorem keeps_apart (compiled : statement.CompilesTo scope plan) (others : ¬ statement.Respells scope) :
    plan.KeepsApart scope.catalog := by
  cases compiled with
  | reading _ _ _ reads =>
      cases plan with
      | alterTable => cases reads
      | _ => trivial
  | createDatabase | dropDatabase | alterDatabase | createTable | dropTable | insert => trivial
  | alterTable name change =>
      cases change with
      | dropColumn column => trivial
      | addColumn column =>
          intro table named new field among doubled
          refine others ⟨table, ?_, ⟨field, among, fun apart => apart doubled⟩, Table.field_none new⟩
          rw [Scope.table, named]
          rfl

end Statement

theorem Catalog.replacing_apart {catalog : Catalog} {table : Table} (apart : catalog.Apart) (own : table.Apart) :
    (catalog.replacing table).Apart := by
  intro id other found
  rw [get?_replacing] at found
  split at found
  · exact Option.some.inj found ▸ own
  · exact apart id other found

namespace Effect

variable {plan : Plan} {before after : Tracked}

theorem keeps_apart (effect : Effect plan before after) (fits : plan.Fits before.engine.catalog)
    (keeps : plan.KeepsApart before.engine.catalog) (sound : before.Sound) (apart : before.engine.catalog.Apart) :
    after.engine.catalog.Apart := by
  cases effect with
  | unrecorded | databases | imported => exact apart
  | databaseDropped name ifExists tables catalog planned listed dropped =>
      obtain ⟨-, -, kept⟩ := Catalog.drop_database_made sound.filed listed dropped
      exact fun id table found => apart id table ((kept id table).mp found).1
  | tableMade database name ifNotExists fields description table catalog planned made =>
      subst planned
      obtain ⟨-, rfl, rfl⟩ := Catalog.create_table_made made
      exact Catalog.replacing_apart apart (Table.valid_apart fits)
  | tableDropped database name ifExists table catalog planned dropped =>
      obtain ⟨-, -, kept⟩ := Catalog.drop_table_made sound.filed dropped
      exact fun id table found => apart id table ((kept id table).mp found).1
  | fieldAdded database name column table catalog planned found checked added =>
      subst planned
      obtain ⟨new, rfl⟩ := Catalog.create_field_made sound.filed column found added
      obtain ⟨-, -, -, held⟩ := Catalog.named_under_id sound.filed found
      refine Catalog.replacing_apart apart (List.pairwise_append.mpr ?_)
      refine ⟨apart table.id table held, List.pairwise_singleton _ _, fun field among other member => ?_⟩
      rw [List.mem_singleton.mp member]
      exact keeps table found new field among
  | fieldDropped database name column table catalog planned found dropped =>
      obtain rfl := Catalog.drop_field_made sound.filed column found dropped
      obtain ⟨-, -, -, held⟩ := Catalog.named_under_id sound.filed found
      exact Catalog.replacing_apart apart ((apart table.id table held).filter _)

-- A column that was added is not new any more.
theorem keeps_keeping_apart (effect : Effect plan before after) (keeps : plan.KeepsApart before.engine.catalog)
    (sound : before.Sound) : plan.KeepsApart after.engine.catalog := by
  cases effect with
  | unrecorded | imported => exact keeps
  | databases databases planned =>
      cases plan with
      | createDatabase | alterDatabase => trivial
      | _ => cases planned
  | databaseDropped | tableMade | tableDropped | fieldDropped =>
      subst plan
      trivial
  | fieldAdded database name column table catalog planned found checked added =>
      subst planned
      obtain ⟨-, rfl⟩ := Catalog.create_field_made sound.filed column found added
      intro other found' new
      have same : other = { table with fields := table.fields ++ [column] } :=
        Catalog.named_replacing sound.filed found _ rfl found'
      subst same
      have different := Table.field_none new column (List.mem_append_right _ List.mem_cons_self)
      rw [Text.same_refl] at different
      cases different

theorem run_keeps_apart (effects : Relation.ReflTransGen (Effect plan) before after)
    (fits : plan.Fits before.engine.catalog) (keeps : plan.KeepsApart before.engine.catalog) (sound : before.Sound)
    (apart : before.engine.catalog.Apart) :
    plan.KeepsApart after.engine.catalog ∧ after.engine.catalog.Apart := by
  refine run_keeps (P := fun state => plan.KeepsApart state.engine.catalog ∧ state.engine.catalog.Apart) effects fits sound
    (fun a b effect fits sound both => ?_) ⟨keeps, apart⟩
  exact ⟨effect.keeps_keeping_apart both.1 sound, effect.keeps_apart fits both.1 sound both.2⟩

end Effect

namespace Engine

variable {config : Config} {nodes : UInt32} {engine : Engine}

def admitsNoRespelling (engine : Engine) (ctx : Context) (statement : Statement) : Prop :=
  ¬ statement.Respells (engine.scope ctx)

theorem reached_apart (reached : Reached admitsNoRespelling config nodes engine) : engine.catalog.Apart := by
  induction reached with
  | opening => exact nofun
  | served engine ctx statement before others ih =>
      obtain ⟨written, sound⟩ := reached_sound before
      rcases run_becomes ctx statement engine sound.filed with same | ⟨plan, compiled, fits, becomes⟩
      · exact same.symm ▸ ih
      · obtain ⟨later, effects⟩ := becomes written
        exact (Effect.run_keeps_apart effects fits (Statement.keeps_apart compiled others) sound ih).2
  | meanwhile engine gate desk _ ih => exact ih

-- A statement that asks for a second column under one key is refused, and changes nothing.
theorem doubling_refused (engine : Engine) (ctx : Context) (statement : Statement)
    (others : ¬ statement.Respells (engine.scope ctx)) (doubles : statement.Doubles (engine.scope ctx)) :
    ∃ e, (run ctx statement).perform engine = (.error e, engine) := by
  rw [perform_run]
  cases compiled : engine.compile ctx statement with
  | error e => exact ⟨e, rfl⟩
  | ok plan =>
      obtain ⟨-, -, compiled⟩ := ok_of_bind compiled
      have compiles := Statement.compiles_to (engine.scope ctx) engine.gate statement plan compiled
      exact absurd (Statement.doubling_respells compiles doubles) others

end Engine

end ShardQuery
