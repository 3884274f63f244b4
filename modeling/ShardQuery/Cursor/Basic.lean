import ShardQuery.Cursor.Gather
import ShardQuery.Cursor.Pipeline
import ShardQuery.Plan.Compile
/-!
The source of a plan, plans with the channels of their warnings, and cursors over a running plan.
-/

set_option autoImplicit false

namespace ShardQuery

structure Pipeline where
  State : Type
  source : Source State

def Pipeline.of {σ : Type} (source : Source σ) : Pipeline := ⟨σ, source.guarded⟩

def Catalog.databaseRows (catalog : Catalog) : List Row :=
  catalog.databaseList.map fun database => ⟨[.string database.name, .string database.id.text]⟩

def Table.listingRow (table : Table) : Row :=
  ⟨[.string table.name, .string table.key, (table.description.map Value.string).getD .null]⟩

def Field.listingRow (field : Field) : Row :=
  ⟨[.string field.name, .string field.type.text, .bool field.nullable]⟩

namespace Plan

-- How a plan runs. The seed is the outer row that its expressions see, and each operator that removes
-- duplicates warns on a channel of its own, the topmost one on the first.
def pipeline (seed : Option Row) : Plan → List Channel → Pipeline
  | .scan table _ fields _, _ => .of (.scan table fields)
  | .values rows _, _ => .of (.listing fun _ _ => .ok rows)
  | .filter predicate child, channels => .of (.filter (child.pipeline seed channels).source predicate seed)
  | .project exprs schema child, channels =>
      .of (.project (child.pipeline seed channels).source exprs schema seed)
  | .distinct child, channels =>
      .of (.distinct (child.pipeline seed channels.tail).source (channels.headD 0))
  | .fanOut table child, channels => .of (.fanOut (child.pipeline seed channels).source table)
  | .orderBy keys child, channels => .of (.sorted (child.pipeline seed channels).source keys seed)
  | .limit window child, channels => .of (.limit (child.pipeline seed channels).source window)
  | .showDatabases, _ => .of (.listing fun _ engine => .ok engine.catalog.databaseRows)
  | .showTables database, _ => .of (.listing fun _ engine => do
      return (← Catalog.ask (engine.catalog.tableList database)).map Table.listingRow)
  | .showColumns database table, _ => .of (.listing fun _ engine => do
      return (← Catalog.ask (engine.catalog.tableNamed database table)).fields.map Field.listingRow)
  | plan, _ => .of (.mutation fun ctx => Engine.mutate ctx plan)

end Plan

-- A plan with a channel for each of its operators that remove duplicates. Plans that share channels share their
-- warnings.
structure Handle where
  plan : Plan
  channels : List Channel

namespace Handle

def pipeline (handle : Handle) (seed : Option Row) : Pipeline := handle.plan.pipeline seed handle.channels

def child? (handle : Handle) : Option Handle :=
  handle.plan.child?.map fun child =>
    match handle.plan with
    | .distinct _ => ⟨child, handle.channels.tail⟩
    | _ => ⟨child, handle.channels⟩

end Handle

structure Cursor where
  handle : Handle
  seed : Option Row
  state : (handle.pipeline seed).State

namespace Cursor

def source (cursor : Cursor) : Source (cursor.handle.pipeline cursor.seed).State :=
  (cursor.handle.pipeline cursor.seed).source

def start (ctx : Context) (handle : Handle) (seed : Option Row) (engine : Engine) : Outcome Cursor :=
  ((handle.pipeline seed).source.start ctx engine).map (Cursor.mk handle seed)

def next (ctx : Context) (cursor : Cursor) (engine : Engine) : Pulled Cursor :=
  (cursor.source.pull ctx cursor.state engine).map (Cursor.mk cursor.handle cursor.seed)

def drain (ctx : Context) (cursor : Cursor) (engine : Engine) : Source.Drained Cursor :=
  let drained := cursor.source.drain ctx cursor.state engine
  ⟨drained.rows, ⟨cursor.handle, cursor.seed, drained.state⟩, drained.engine⟩

def close (cursor : Cursor) : Cursor := { cursor with state := cursor.source.close cursor.state }

def spillFiles (cursor : Cursor) : Nat := cursor.source.spillFiles cursor.state

end Cursor

end ShardQuery
