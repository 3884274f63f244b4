import Mathlib.Data.List.Induction
import ShardQuery.Proofs.Catalog.Reflected
import ShardQuery.Proofs.Engine.Effects
import ShardQuery.Proofs.Statement.Compiled
/-!
What the gate keeps out. Main statement: where the ids of the names in use are apart, no operator of a plan needs an
access that was denied last, under any spelling of its object's name, and a statement that needs one has no plan.
-/

set_option autoImplicit false

namespace ShardQuery

-- What is asked of the gate's keeper.
structure GateCall where
  object : String
  access : Access
  denies : Bool

namespace GateCall

def about (call : GateCall) (object : String) (access : Access) : Bool :=
  Text.lower call.object == Text.lower object && call.access == access

def perform (gate : DenyList) (call : GateCall) : DenyList :=
  if call.denies then gate.deny call.object call.access else gate.allow call.object call.access

end GateCall

-- The last call about the object and the access, in any spelling, decides.
def Denied (calls : List GateCall) (object : String) (access : Access) : Prop :=
  (calls.reverse.find? (·.about object access)).any (·.denies) = true

instance (calls : List GateCall) (object : String) (access : Access) : Decidable (Denied calls object access) :=
  inferInstanceAs (Decidable (_ = true))

theorem denied_spelt (calls : List GateCall) {a b : String} (same : Text.lower a = Text.lower b) (access : Access) :
    Denied calls a access ↔ Denied calls b access := by
  simp only [Denied, GateCall.about, same]

namespace DenyList

def after (calls : List GateCall) : DenyList := calls.foldl GateCall.perform allowAll

theorem about_iff (call : GateCall) (object : String) (access : Access) :
    call.about object access = true ↔ (Text.lower object, access) = (Text.lower call.object, call.access) := by
  rw [GateCall.about, Bool.and_eq_true, beq_iff_eq, beq_iff_eq, Prod.mk.injEq]
  exact and_congr eq_comm eq_comm

theorem mem_perform (gate : DenyList) (call : GateCall) (object : String) (access : Access) :
    (Text.lower object, access) ∈ (call.perform gate).denied ↔
      if call.about object access then call.denies = true else (Text.lower object, access) ∈ gate.denied := by
  have about := about_iff call object access
  rw [GateCall.perform]
  by_cases denies : call.denies = true
  · rw [if_pos denies, deny]
    by_cases here : call.about object access = true
    · simp only [if_pos here, denies, about.mp here, iff_true]
      split
      · rename_i held
        exact List.contains_iff_mem.mp held
      · exact List.mem_append_right _ (List.mem_singleton_self _)
    · rw [if_neg here]
      split
      · rfl
      · simp only [List.mem_append, List.mem_singleton, mt about.mpr here, or_false]
  · rw [if_neg denies, allow, List.mem_filter, bne_iff_ne]
    by_cases here : call.about object access = true
    · simp [here, denies, about.mp here]
    · simp only [if_neg here, ne_eq, mt about.mpr here, not_false_eq_true, and_true]

theorem mem_after (calls : List GateCall) (object : String) (access : Access) :
    (Text.lower object, access) ∈ (after calls).denied ↔ Denied calls object access := by
  rw [after, Denied]
  induction calls using List.reverseRecOn with
  | nil => simp [allowAll]
  | append_singleton earlier call ih =>
      rw [List.foldl_append, List.foldl_cons, List.foldl_nil, mem_perform, List.reverse_append, List.reverse_singleton,
        List.singleton_append, List.find?_cons, ih]
      cases call.about object access with
      | true => rfl
      | false => rfl

theorem check_after (calls : List GateCall) (object : String) (access : Access) :
    (after calls).check object access =
      if Denied calls object access then .error (.accessDenied object access) else .ok () := by
  rw [check]
  by_cases denied : Denied calls object access
  · rw [if_pos denied, if_pos (List.contains_iff_mem.mpr ((mem_after calls object access).mpr denied))]
  · rw [if_neg denied, if_neg (mt List.contains_iff_mem.mp (mt (mem_after calls object access).mp denied))]

end DenyList

namespace Plan

-- The plan and all that is below it.
def operators (plan : Plan) : List Plan :=
  plan :: match plan with
    | .filter _ child | .project _ _ child | .distinct child | .fanOut _ child | .orderBy _ child | .limit _ child =>
        child.operators
    | _ => []

theorem operators_over {plan child : Plan} (feeds : plan.child? = some child) :
    plan.operators = plan :: child.operators := by
  cases plan with
  | filter | project | distinct | fanOut | orderBy | limit =>
      cases feeds
      rfl
  | scan | values | createDatabase | dropDatabase | alterDatabase | createTable | dropTable | alterTable | insert
  | showDatabases | showTables | showColumns => cases feeds

-- The access that the operator needs, on the object that it names.
def needs? : Plan → Option (String × Access)
  | .scan _ table _ _ => some (table, .read)
  | .showColumns _ table => some (table, .read)
  | .showTables database => some (database, .read)
  | .insert insertion => some (insertion.tableName, .write)
  | .createTable _ name .. | .createDatabase name .. => some (name, .create)
  | .alterTable _ name _ | .alterDatabase name .. => some (name, .alter)
  | .dropTable _ name _ | .dropDatabase name _ => some (name, .drop)
  | _ => none

-- An operator that needs something is below one that needs nothing.
theorem operators_below {plan child operator : Plan} {needed : String × Access} (feeds : plan.child? = some child)
    (idle : plan.needs? = none) (among : operator ∈ plan.operators) (needs : operator.needs? = some needed) :
    operator ∈ child.operators := by
  rw [operators_over feeds] at among
  rcases List.mem_cons.mp among with same | below
  · rw [same, idle] at needs
    cases needs
  · exact below

-- The name with which the object of the operator was created, if it is there.
def created? (catalog : Catalog) : Plan → Option String
  | .scan table .. => (catalog.tables.get? table).map (·.name)
  | .insert insertion => (catalog.tables.get? insertion.table).map (·.name)
  | .createTable database name .. | .alterTable database name _ | .dropTable database name _ | .showColumns database name =>
      (catalog.tableNamed database name).toOption.map (·.name)
  | .createDatabase name .. | .alterDatabase name .. | .dropDatabase name _ | .showTables name =>
      (catalog.databaseNamed name).toOption.map (·.name)
  | _ => none

end Plan

-- The access that a statement in a database needs, on the object that it names.
def Statement.needs? (database : String) : Statement → Option (String × Access)
  | .select query => query.source?.map fun source => (source.name, .read)
  | .createDatabase name .. | .createTable name .. => some (name, .create)
  | .dropDatabase name _ | .dropTable name _ => some (name, .drop)
  | .alterDatabase name .. | .alterTable name _ => some (name, .alter)
  | .insert table .. => some (table, .write)
  | .showTables => some (database, .read)
  | .showColumns table => some (table, .read)
  | .showDatabases | .createView .. | .createFunction _ | .createModel _ | .delete .. => none

-- The objects of the catalog have names of the list.
structure Catalog.Within (names : List String) (catalog : Catalog) : Prop where
  databases : ∀ id database, catalog.databases.get? id = some database → Text.lower database.name ∈ names.map Text.lower
  tables : ∀ id table, catalog.tables.get? id = some table → Text.lower table.name ∈ names.map Text.lower

-- The analysis leaves the object that is named, but that an insertion has the name that the table was created with.
theorem analysis_names {scope : Scope} {statement analyzed : Statement} (analysis : statement.analyze scope = .ok analyzed) :
    analyzed.needs? scope.database = statement.needs? scope.database ∨
      ∃ name table, statement.needs? scope.database = some (name, .write) ∧
        analyzed.needs? scope.database = some (table.name, .write) ∧ scope.table name = .ok table := by
  cases statement with
  | select query =>
      obtain ⟨query, done, rfl⟩ := ok_of_map analysis
      obtain ⟨input, -, done⟩ := ok_of_bind done
      obtain ⟨items, -, done⟩ := ok_of_bind done
      obtain ⟨condition, -, done⟩ := ok_of_bind done
      obtain ⟨output, -, done⟩ := ok_of_bind done
      obtain ⟨keys, -, done⟩ := ok_of_bind done
      cases done
      exact .inl rfl
  | insert name columns rows =>
      obtain ⟨table, found, analysis⟩ := ok_of_bind analysis
      obtain ⟨targets, -, analysis⟩ := ok_of_bind analysis
      obtain ⟨_, -, analysis⟩ := ok_of_bind analysis
      obtain ⟨rows, -, analysis⟩ := ok_of_bind analysis
      cases analysis
      exact .inr ⟨name, table, rfl, rfl, found⟩
  | createTable name ifNotExists columns description =>
      obtain ⟨_, -, analysis⟩ := ok_of_bind analysis
      obtain ⟨_, -, analysis⟩ := ok_of_bind analysis
      cases analysis
      exact .inl rfl
  | alterTable name change =>
      obtain ⟨_, -, analysis⟩ := ok_of_bind analysis
      obtain ⟨_, -, analysis⟩ := ok_of_bind analysis
      cases analysis
      exact .inl rfl
  | dropTable name ifExists | dropDatabase name ifExists =>
      cases ifExists with
      | true =>
          cases analysis
          exact .inl rfl
      | false =>
          obtain ⟨_, -, analysis⟩ := ok_of_bind analysis
          cases analysis
          exact .inl rfl
  | alterDatabase | showTables | showColumns =>
      obtain ⟨_, -, analysis⟩ := ok_of_bind analysis
      cases analysis
      exact .inl rfl
  | createDatabase | showDatabases | createView | createFunction | createModel | delete =>
      cases analysis
      exact .inl rfl

-- The gate is asked before anything else.
theorem plan_asks (scope : Scope) (gate : DenyList) (statement : Statement) {object : String} {access : Access}
    (needs : statement.needs? scope.database = some (object, access)) :
    ∃ next, statement.plan scope gate = gate.check object access >>= next := by
  cases statement with
  | select query =>
      obtain ⟨source, from', same⟩ := Option.map_eq_some_iff.mp needs
      cases same
      rw [Statement.plan, Select.compile, Select.compileRows, from']
      exact ⟨_, bind_assoc _ _ _⟩
  | showDatabases | createView | createFunction | createModel | delete => cases needs
  | createDatabase | dropDatabase | alterDatabase | createTable | dropTable | alterTable | insert | showTables
  | showColumns =>
      cases needs
      exact ⟨_, rfl⟩

namespace Select

variable {query : Select} {plan operator : Plan} {object : String} {access : Access}

-- Over its source, a query puts operators that need nothing.
theorem local_operators {source : Plan} (compiled : query.compileLocal source = .ok plan)
    (among : operator ∈ plan.operators) (needs : operator.needs? = some (object, access)) : operator ∈ source.operators := by
  obtain ⟨filtered, found, compiled⟩ := ok_of_bind compiled
  obtain ⟨exprs, -, compiled⟩ := ok_of_bind compiled
  obtain ⟨output, -, compiled⟩ := ok_of_bind compiled
  have projected : operator ∈ (Plan.project exprs output filtered).operators := by
    rw [← Except.ok.inj compiled] at among
    split at among
    · exact Plan.operators_below rfl rfl among needs
    · exact among
  have among' := Plan.operators_below rfl rfl projected needs
  split at found
  · obtain ⟨predicate, -, rfl⟩ := ok_of_map found
    exact Plan.operators_below rfl rfl among' needs
  · cases found
    exact among'

theorem rows_operators (scope : Scope) (gate : DenyList) (compiled : query.compileRows scope gate = .ok plan)
    (among : operator ∈ plan.operators) (needs : operator.needs? = some (object, access)) :
    ∃ source table, query.source? = some source ∧ scope.table source.name = .ok table ∧
      operator = compileScan table source.relation := by
  rw [compileRows] at compiled
  split at compiled
  · rename_i source from'
    obtain ⟨_, -, compiled⟩ := ok_of_bind compiled
    obtain ⟨table, found, compiled⟩ := ok_of_bind compiled
    obtain ⟨onNodes, here, compiled⟩ := ok_of_bind compiled
    have everywhere : operator ∈ (Plan.fanOut table.id onNodes).operators := by
      rw [← Except.ok.inj compiled] at among
      split at among
      · exact Plan.operators_below rfl rfl among needs
      · exact among
    have among' := Plan.operators_below rfl rfl everywhere needs
    exact ⟨source, table, from', found, List.mem_singleton.mp (local_operators here among' needs)⟩
  · have none := List.mem_singleton.mp (local_operators compiled among needs)
    rw [none] at needs
    cases needs

theorem compile_operators (scope : Scope) (gate : DenyList) (compiled : query.compile scope gate = .ok plan)
    (among : operator ∈ plan.operators) (needs : operator.needs? = some (object, access)) :
    ∃ source table, query.source? = some source ∧ scope.table source.name = .ok table ∧
      operator = compileScan table source.relation := by
  obtain ⟨rows, found, compiled⟩ := ok_of_bind compiled
  obtain ⟨keys, -, compiled⟩ := ok_of_bind compiled
  have sorted : operator ∈ (if keys.isEmpty then rows else .orderBy keys rows).operators := by
    rw [← Except.ok.inj compiled] at among
    split at among
    · exact Plan.operators_below rfl rfl among needs
    · exact among
  refine rows_operators scope gate found ?_ needs
  split at sorted
  · exact sorted
  · exact Plan.operators_below rfl rfl sorted needs

end Select

section Names

variable {names : List String} {scope : Scope} {gate : DenyList} {owner name : String} (apart : Apart names)
  (derived : scope.catalog.Derived) (within : scope.catalog.Within names)
  (here : Text.lower scope.database ∈ names.map Text.lower)

include apart derived within

-- What is found by a name was created with a spelling of it.
theorem database_spelt (known : Text.lower name ∈ names.map Text.lower) {database : Database}
    (found : scope.catalog.databaseNamed name = .ok database) : Text.lower database.name = Text.lower name := by
  have held := Engine.database_named_found found
  exact databases_apart apart _ _ (within.databases _ database held) known (derived.databases _ database held).2.symm

include here

theorem table_spelt (known : Text.lower name ∈ names.map Text.lower) {table : Table}
    (found : scope.catalog.tableNamed scope.database name = .ok table) : Text.lower table.name = Text.lower name := by
  obtain ⟨owner, named, held⟩ := Catalog.table_named_found found
  obtain ⟨database, owned⟩ := derived.owned _ table held
  have owners := Engine.database_named_found named
  have ids : TableId.ofKeys (Text.lower database.name, Text.lower table.name) =
      .ofKeys (Text.lower scope.database, Text.lower name) := by
    have filed := (derived.tables _ table held).2
    rw [(derived.databases _ owner owners).1, (derived.databases _ database owned).2] at filed
    exact filed.symm
  exact congrArg Prod.snd (tables_apart apart _ _ ⟨within.databases _ database owned, within.tables _ table held⟩
    ⟨here, known⟩ ids)

theorem created_table_spelt (known : Text.lower name ∈ names.map Text.lower) {created : String}
    (found : (scope.catalog.tableNamed scope.database name).toOption.map (·.name) = some created) :
    Text.lower created = Text.lower name := by
  cases there : scope.catalog.tableNamed scope.database name with
  | error cause =>
      rw [there] at found
      cases found
  | ok table =>
      rw [there] at found
      cases found
      exact table_spelt apart derived within here known there

-- The table that a name finds is the one under its id.
theorem stored_spelt (known : Text.lower name ∈ names.map Text.lower) {table : Table}
    (found : scope.table name = .ok table) :
    Text.lower table.name = Text.lower name ∧
      (scope.catalog.tables.get? table.id).map (·.name) = some table.name := by
  have named := Catalog.ask_ok found
  obtain ⟨owner, -, held⟩ := Catalog.table_named_found named
  refine ⟨table_spelt apart derived within here known named, ?_⟩
  rw [(derived.tables _ table held).1, held]
  rfl

omit here in
theorem created_database_spelt (known : Text.lower name ∈ names.map Text.lower) {created : String}
    (found : (scope.catalog.databaseNamed name).toOption.map (·.name) = some created) :
    Text.lower created = Text.lower name := by
  cases there : scope.catalog.databaseNamed name with
  | error cause =>
      rw [there] at found
      cases found
  | ok database =>
      rw [there] at found
      cases found
      exact database_spelt apart derived within known there

-- What an operator needs is what the statement needs, and its object was created with a spelling of the name.
theorem operator_spelt {statement : Statement} {plan operator : Plan} {object : String} {access : Access}
    (planned : statement.plan scope gate = .ok plan) (among : operator ∈ plan.operators)
    (needs : operator.needs? = some (object, access))
    (known : ∀ object access, statement.needs? scope.database = some (object, access) →
      Text.lower object ∈ names.map Text.lower) :
    ∃ asked, statement.needs? scope.database = some (asked, access) ∧ Text.lower object = Text.lower asked ∧
      ∀ created, operator.created? scope.catalog = some created → Text.lower created = Text.lower asked := by
  cases statement with
  | select query =>
      obtain ⟨source, table, from', found, rfl⟩ := Select.compile_operators scope gate planned among needs
      have asks : (Statement.select query).needs? scope.database = some (source.name, .read) :=
        congrArg (Option.map _) from'
      obtain ⟨spelt, stored⟩ := stored_spelt apart derived within here (known _ _ asks) found
      cases needs
      exact ⟨source.name, asks, spelt, fun created there => Option.some.inj (stored.symm.trans there) ▸ spelt⟩
  | insert name columns rows =>
      obtain ⟨_, -, planned⟩ := ok_of_bind planned
      obtain ⟨table, found, planned⟩ := ok_of_bind planned
      obtain ⟨types, -, planned⟩ := ok_of_bind planned
      obtain ⟨bound, -, planned⟩ := ok_of_bind planned
      obtain ⟨spelt, stored⟩ := stored_spelt apart derived within here (known _ _ rfl) found
      cases planned
      obtain rfl := List.mem_singleton.mp among
      cases needs
      exact ⟨name, rfl, spelt, fun created there => Option.some.inj (stored.symm.trans there) ▸ spelt⟩
  | createTable | alterTable | dropTable | showColumns =>
      obtain ⟨_, -, planned⟩ := ok_of_bind planned
      cases planned
      obtain rfl := List.mem_singleton.mp among
      cases needs
      exact ⟨_, rfl, rfl, fun created there => created_table_spelt apart derived within here (known _ _ rfl) there⟩
  | createDatabase | alterDatabase | dropDatabase | showTables =>
      obtain ⟨_, -, planned⟩ := ok_of_bind planned
      cases planned
      obtain rfl := List.mem_singleton.mp among
      cases needs
      exact ⟨_, rfl, rfl, fun created there => created_database_spelt apart derived within (known _ _ rfl) there⟩
  | showDatabases =>
      cases planned
      obtain rfl := List.mem_singleton.mp among
      cases needs
  | createView | createFunction | createModel | delete => cases planned

-- Before and after the analysis, a statement needs the same access, on one object up to the spelling.
theorem analysis_spelt {statement analyzed : Statement} (analysis : statement.analyze scope = .ok analyzed)
    (known : ∀ object access, statement.needs? scope.database = some (object, access) →
      Text.lower object ∈ names.map Text.lower) :
    statement.needs? scope.database = none ∧ analyzed.needs? scope.database = none ∨
      ∃ object asked access, statement.needs? scope.database = some (object, access) ∧
        analyzed.needs? scope.database = some (asked, access) ∧ Text.lower asked = Text.lower object := by
  rcases analysis_names analysis with same | ⟨name, table, before, after, found⟩
  · cases needs : statement.needs? scope.database with
    | none => exact .inl ⟨rfl, same.trans needs⟩
    | some needed => exact .inr ⟨needed.1, needed.1, needed.2, rfl, same.trans needs, rfl⟩
  · exact .inr ⟨name, table.name, .write, before, after,
      (stored_spelt apart derived within here (known _ _ before) found).1⟩

end Names

theorem DenyList.checked_after {calls : List GateCall} {object : String} {access : Access}
    (checked : (after calls).check object access = .ok ()) : ¬Denied calls object access := by
  intro denied
  rw [check_after, if_pos denied] at checked
  cases checked

theorem Engine.compiles_only_allowed (engine : Engine) (ctx : Context) (statement : Statement) (calls : List GateCall)
    (gated : engine.gate = .after calls) (names : List String) (apart : Apart names) (derived : engine.catalog.Derived)
    (within : engine.catalog.Within names) (here : Text.lower ctx.database ∈ names.map Text.lower)
    (known : ∀ object access, statement.needs? ctx.database = some (object, access) →
      Text.lower object ∈ names.map Text.lower) :
    (∀ plan, engine.compile ctx statement = .ok plan → ∀ operator ∈ plan.operators, ∀ object access,
      operator.needs? = some (object, access) → ¬Denied calls object access ∧
        ∀ created, operator.created? engine.catalog = some created → ¬Denied calls created access) ∧
    ∀ object access, statement.needs? ctx.database = some (object, access) → Denied calls object access →
      (∀ plan, engine.compile ctx statement ≠ .ok plan) ∧
      ∀ analyzed, ctx.check engine.clock = .ok () → statement.analyze (engine.scope ctx) = .ok analyzed →
        ∃ spelling, Text.lower spelling = Text.lower object ∧
          engine.compile ctx statement = .error (.accessDenied spelling access) := by
  have derived : (engine.scope ctx).catalog.Derived := derived
  have within : (engine.scope ctx).catalog.Within names := within
  have spelt {analyzed : Statement} (analysis : statement.analyze (engine.scope ctx) = .ok analyzed) :=
    analysis_spelt apart derived within here analysis known
  constructor
  · intro plan compiled operator among object access needs
    obtain ⟨_, -, compiled⟩ := ok_of_bind compiled
    obtain ⟨analyzed, analysis, planned⟩ := ok_of_bind compiled
    have known' (asked : String) (access : Access) (asks : analyzed.needs? ctx.database = some (asked, access)) :
        Text.lower asked ∈ names.map Text.lower := by
      rcases spelt analysis with ⟨-, nothing⟩ | ⟨object, asked', access', needed, asks', same⟩
      · cases nothing.symm.trans asks
      · cases asks'.symm.trans asks
        exact same ▸ known _ _ needed
    obtain ⟨asked, asks, named, created⟩ := operator_spelt apart derived within here planned among needs known'
    obtain ⟨next, first⟩ := plan_asks (engine.scope ctx) engine.gate analyzed asks
    obtain ⟨_, passed, -⟩ := ok_of_bind (first.symm.trans planned)
    have allowed := DenyList.checked_after (gated ▸ passed)
    exact ⟨mt (denied_spelt calls named access).mp allowed,
      fun name there => mt (denied_spelt calls (created name there) access).mp allowed⟩
  · intro object access needs denied
    have refused (analyzed : Statement) (runs : ctx.check engine.clock = .ok ())
        (analysis : statement.analyze (engine.scope ctx) = .ok analyzed) :
        ∃ spelling, Text.lower spelling = Text.lower object ∧
          engine.compile ctx statement = .error (.accessDenied spelling access) := by
      rcases spelt analysis with ⟨nothing, -⟩ | ⟨object', asked, access', needed, asks, same⟩
      · cases nothing.symm.trans needs
      · cases needed.symm.trans needs
        obtain ⟨next, first⟩ := plan_asks (engine.scope ctx) engine.gate analyzed asks
        refine ⟨asked, same, ?_⟩
        rw [Engine.compile, runs, Statement.compile, analysis]
        change analyzed.plan (engine.scope ctx) engine.gate = _
        rw [first, gated, DenyList.check_after, if_pos ((denied_spelt calls same access).mpr denied)]
        rfl
    refine ⟨fun plan compiled => ?_, refused⟩
    obtain ⟨_, runs, analyzes⟩ := ok_of_bind compiled
    obtain ⟨analyzed, analysis, -⟩ := ok_of_bind analyzes
    obtain ⟨_, -, failed⟩ := refused analyzed runs analysis
    cases compiled.symm.trans failed

-- Both hold of every catalog that changes of known names lead to.
theorem Catalog.after_derived {names : List String} (apart : Apart names) (changes : List CatalogChange)
    (known : ∀ change ∈ changes, ∀ name ∈ change.names, Text.lower name ∈ names.map Text.lower) :
    (after changes).Derived ∧ (after changes).Within names := by
  have tracks := after_tracks apart changes known
  refine ⟨(tracks_reflects apart tracks).toDerived, fun id database held => ?_, fun id table held => ?_⟩
  · obtain ⟨⟨key, there⟩, -⟩ := (has_database tracks).mp held
    obtain ⟨kept, found, rfl⟩ := Option.map_eq_some_iff.mp there
    obtain ⟨same, listed⟩ := tracks.keyed.databases key kept found
    exact same ▸ listed
  · obtain ⟨⟨place, there⟩, -⟩ := (has_table tracks).mp held
    obtain ⟨database, kept, found, found', rfl, -, -⟩ := table_placed tracks there
    obtain ⟨same, listed⟩ := tracks.keyed.tables _ database found _ kept found'
    exact same ▸ listed

-- Writing is denied under one spelling; reading was denied, and is allowed again under another.
def guardCalls : List GateCall := [⟨"orders", .write, true⟩, ⟨"Orders", .read, true⟩, ⟨"oRDERS", .read, false⟩]

def guarded : Engine :=
  { Engine.make .standard 1 with catalog := .after Catalog.remade, gate := .after guardCalls }

def guardedInsert : Statement := .insert "OrDeRs" ["_id"] [[.literal (.id 1)]]

def guardedSelect : Statement := .select ⟨false, [.wildcard none], some ⟨"Orders", some "o"⟩, none, [], none⟩

theorem guarded_insert_refused : Apart ["Sales", "Orders"] ∧ guarded.catalog.Derived ∧
    guarded.catalog.Within ["Sales", "Orders"] ∧ Denied guardCalls "OrDeRs" .write ∧
    (∃ spelling, Text.lower spelling = "orders" ∧
      guarded.compile (.of "Sales") guardedInsert = .error (.accessDenied spelling .write)) ∧
    ∃ plan, guarded.compile (.of "Sales") guardedSelect = .ok plan ∧
      ∀ operator ∈ plan.operators, ∀ object access, operator.needs? = some (object, access) →
        ¬Denied guardCalls object access := by
  have known : ∀ change ∈ Catalog.remade, ∀ name ∈ change.names,
      Text.lower name ∈ ["Sales", "Orders"].map Text.lower := by decide +kernel
  have reached : guarded.catalog = .after Catalog.remade := by rw [guarded]
  obtain ⟨derived, within⟩ := reached ▸ Catalog.after_derived Catalog.remade_apart Catalog.remade known
  have denied : Denied guardCalls "OrDeRs" .write := by decide +kernel
  refine ⟨Catalog.remade_apart, derived, within, denied, ?_, ?_⟩
  · have refused := (Engine.compiles_only_allowed guarded (.of "Sales") guardedInsert guardCalls rfl ["Sales", "Orders"]
      Catalog.remade_apart derived within (by decide +kernel)
      (fun object access needs => by cases needs; decide +kernel)).2 "OrDeRs" .write rfl denied
    have analyzes : (guardedInsert.analyze (guarded.scope (.of "Sales"))).isOk = true := by decide +kernel
    cases analysis : guardedInsert.analyze (guarded.scope (.of "Sales")) with
    | error cause =>
        rw [analysis] at analyzes
        cases analyzes
    | ok analyzed =>
        obtain ⟨spelling, same, failed⟩ := refused.2 analyzed rfl analysis
        exact ⟨spelling, same.trans (by decide +kernel), failed⟩
  · have allowed := (Engine.compiles_only_allowed guarded (.of "Sales") guardedSelect guardCalls rfl ["Sales", "Orders"]
      Catalog.remade_apart derived within (by decide +kernel)
      (fun object access needs => by cases needs; decide +kernel)).1
    have compiles : (guarded.compile (.of "Sales") guardedSelect).isOk = true := by decide +kernel
    cases compiled : guarded.compile (.of "Sales") guardedSelect with
    | error cause =>
        rw [compiled] at compiles
        cases compiles
    | ok plan => exact ⟨plan, rfl, fun operator among object access needs =>
        (allowed plan compiled operator among object access needs).1⟩

end ShardQuery
