import ShardQuery.Cursor.Basic
import ShardQuery.Engine.Result
/-!
Compiling and executing statements.
-/

set_option autoImplicit false

namespace ShardQuery.Engine

def scope (engine : Engine) (ctx : Context) : Scope :=
  ⟨engine.catalog, ctx.database, some engine.holdsRows⟩

def compile (engine : Engine) (ctx : Context) (statement : Statement) : Outcome Plan := do
  ctx.check engine.clock
  statement.compile (engine.scope ctx) engine.gate

def adopt (engine : Engine) (plan : Plan) : Handle × Engine :=
  let (channels, engine) := engine.openChannels plan.distinctCount
  (⟨plan, channels⟩, engine)

def withChildren (engine : Engine) (handle : Handle) (children : List Handle) :
    Outcome (Handle × Engine) := do
  let plan ← handle.plan.withChildren (children.map (·.plan))
  let (own, engine) := match plan with
    | .distinct _ => engine.openChannels 1
    | _ => ([], engine)
  return (⟨plan, own ++ children.flatMap (·.channels)⟩, engine)

def warningsOf (engine : Engine) (handle : Handle) : List String := engine.warningsOn handle.channels

def execute (ctx : Context) (handle : Handle) : Step Engine QueryResult := do
  let cursor ← Step.ofOutcome (Cursor.start ctx handle none (← get))
  let drained := cursor.drain ctx (← get)
  set drained.engine
  let rows ← Step.ofOutcome drained.rows
  return ⟨handle.plan.schema, rows, drained.engine.warningsOf handle⟩

def run (ctx : Context) (statement : Statement) : Step Engine QueryResult := do
  let plan ← Step.ofOutcome ((← get).compile ctx statement)
  let (handle, engine) := (← get).adopt plan
  set engine
  execute ctx handle

end ShardQuery.Engine
