import ShardQuery.Engine.Basic
import ShardQuery.Plan.Basic
import ShardQuery.Statement.Analysis
/-!
Statements that change the catalog or the store. Definitions touch the catalog first and the store
second, except that a dropped database loses the rows of its tables before it is gone.
-/

set_option autoImplicit false

namespace ShardQuery

namespace InsertPlan

def idPosition (insertion : InsertPlan) : Outcome Nat :=
  match insertion.columns.findIdx? (Text.same · idColumn) with
  | some i => .ok i
  | none => .error (.validation s!"insert into {insertion.tableName} without '{idColumn}'")

-- One cell of an inserted row: the record id, a field to set, or, for null, a field to clear.
def setCell (isId : Bool) (column : String) (v : Value) (update : RowUpdate) : Outcome RowUpdate :=
  if isId then
    match v.asId? with
    | some id => .ok { update with id }
    | none => .error (.execution s!"invalid record id {v.text}")
  else if v.isNull then .ok { update with clear := update.clear ++ [column] }
  else .ok { update with set := update.set ++ [(column, v)] }

def updateOf (insertion : InsertPlan) (idAt : Nat) (cells : List PlanExpr) : Outcome RowUpdate :=
  (cells.zip (insertion.columns.zip insertion.types)).zipIdx.foldlM
    (fun update ((cell, column, type), i) => do
      let v ← (← cell.eval .empty none).coerce type
      setCell (i == idAt) column v update)
    ⟨0, [], []⟩

-- The updates of all rows, in the order of the rows. Each must have a shard to go to.
def updates (insertion : InsertPlan) (width : UInt64) : Outcome (List RowUpdate) := do
  let idAt ← insertion.idPosition
  insertion.rows.mapM fun cells => do
    let change ← insertion.updateOf idAt cells
    discard (locate change.id width)
    return change

end InsertPlan

-- Updates by shard. Within a shard they keep their order.
def RowUpdate.byShard (width : UInt64) (changes : List RowUpdate) : SortedMap ShardId (List RowUpdate) :=
  changes.foldl (fun groups change =>
    let shard := shardOf change.id width
    groups.insert shard ((groups.get? shard).getD [] ++ [change])) .empty

namespace Engine

def changeCatalog (change : Catalog → Catalog.Lookup Catalog) : Step Engine Unit := do
  let engine ← get
  match change engine.catalog with
  | .ok catalog => set { engine with catalog }
  | .error cause => throw (.catalog cause)

def changeStore (change : Store → Outcome Store) : Step Engine Unit := do
  let engine ← get
  let store ← Step.ofOutcome (change engine.store)
  set { engine with store }

def askCatalog {α : Type} (question : Catalog → Catalog.Lookup α) : Step Engine α := do
  match question (← get).catalog with
  | .ok answer => return answer
  | .error cause => throw (.catalog cause)

def atDesk {α : Type} (step : Step TransactionDesk α) : Step Engine α :=
  Step.onPart (fun engine => engine.store.desk)
    (fun engine desk => { engine with store := { engine.store with desk } }) step

def tolerating (tolerated : CatalogError) (step : Step Engine Unit) : Step Engine Unit :=
  tryCatch step fun e => if e = .catalog tolerated then pure () else throw e

def createDatabase (name : String) (options : SortedMap String String) : Step Engine Unit :=
  changeCatalog fun catalog => (catalog.createDatabase name options).map (·.2)

def dropDatabase (name : String) : Step Engine Unit := do
  let tables ← askCatalog (·.tableList name)
  changeStore fun store => .ok (tables.foldl (fun store table => store.deleteTable table.id) store)
  changeCatalog (·.dropDatabase name)

def createTable (database name : String) (fields : List Field) (description : Option String) :
    Step Engine Unit :=
  changeCatalog fun catalog => (catalog.createTable database name fields description).map (·.2)

def dropTable (database name : String) : Step Engine Unit := do
  let (table, catalog) ← askCatalog (·.dropTable database name)
  modify fun engine => { engine with catalog, store := engine.store.deleteTable table.id }

def changeTable (database name : String) (change : TableChange) : Step Engine Unit := do
  let table ← askCatalog (·.tableNamed database name)
  match change with
  | .addColumn column =>
      Step.ofOutcome (checkAddColumn (← get).holdsRows table column)
      changeCatalog (·.createField database name column)
  | .dropColumn column =>
      changeCatalog (·.dropField database name column)
      changeStore fun store => .ok (store.deleteField table.id column)

-- Whether an import may go on with a shard, at a clock reading. It may be stopped between any two.
abbrev Watch := ShardId → Nat → Outcome Unit

def importShards (watch : Watch) (table : TableId) : List (ShardId × List RowUpdate) → Step Engine Unit
  | [] => return
  | (shard, changes) :: rest => do
      Step.ofOutcome (watch shard (← get).clock)
      changeStore (·.importRows table shard changes true)
      importShards watch table rest

-- All rows are evaluated before the first is imported.
def importInsert (watch : Watch) (insertion : InsertPlan) : Step Engine Unit := do
  let width := (← get).config.shardWidth
  let changes ← Step.ofOutcome (insertion.updates width)
  importShards watch insertion.table (RowUpdate.byShard width changes).entries

-- Inserts under a shared transaction, which ends whatever becomes of the import, unless that breaks off.
def insert (watch : Watch) (insertion : InsertPlan) : Step Engine Unit := do
  let config := (← get).config
  let txn ← atDesk (TransactionDesk.start none config.insertTimeout false config.requestTimeout)
  match ← (importInsert watch insertion).attempt with
  | .error (.brokeOff cause) => throw (.brokeOff cause)
  | imported =>
      let finished ← (atDesk (TransactionDesk.finish txn.id)).attempt
      Step.ofOutcome imported
      discard (Step.ofOutcome finished)

def mutate (ctx : Context) : Plan → Step Engine Unit
  | .createDatabase name ifNotExists options =>
      if ifNotExists then tolerating (.databaseNameExists name) (createDatabase name options)
      else createDatabase name options
  | .dropDatabase name ifExists =>
      if ifExists then tolerating (.databaseNameMissing name) (dropDatabase name) else dropDatabase name
  | .alterDatabase name option setting => changeCatalog (·.setOption name option setting)
  | .createTable database name ifNotExists fields description =>
      if ifNotExists then tolerating (.tableNameExists name) (createTable database name fields description)
      else createTable database name fields description
  | .dropTable database name ifExists =>
      if ifExists then tolerating (.tableNameMissing name) (dropTable database name)
      else dropTable database name
  | .alterTable database name change => changeTable database name change
  | .insert insertion => insert (fun _ => ctx.check) insertion
  | _ => return

end Engine

end ShardQuery
