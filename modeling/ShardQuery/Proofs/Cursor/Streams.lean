import ShardQuery.Cursor.Basic
/-!
Plans as streams: rows, and then the end or an error. Each operator makes its stream of the stream of its child, as
lists are made of lists.
-/

set_option autoImplicit false

namespace ShardQuery

-- Rows, and the errors one of which follows them. Rows that no error follows come to their end.
structure Stream where
  rows : List Row
  errors : List EngineError
deriving DecidableEq

namespace Stream

def failing (e : EngineError) : Stream := ⟨[], [e]⟩

def cons (row : Row) (stream : Stream) : Stream := ⟨row :: stream.rows, stream.errors⟩

def ofOutcome : Outcome (List Row) → Stream
  | .ok rows => ⟨rows, []⟩
  | .error e => failing e

-- The stream of what could be started, and the error of what could not.
def ofStart : Outcome Stream → Stream
  | .ok stream => stream
  | .error e => failing e

-- What a run that takes all rows may come to.
def Gives (stream : Stream) : Response → Prop
  | .ok rows => stream.errors = [] ∧ rows = stream.rows
  | .error e => e ∈ stream.errors

-- Parts one after the other, up to the first that fails.
def ofParts : List (Outcome (List Row)) → Stream
  | [] => ⟨[], []⟩
  | .ok rows :: parts => ⟨rows ++ (ofParts parts).rows, (ofParts parts).errors⟩
  | .error e :: _ => failing e

def keep (test : Row → Outcome Bool) (stream : Stream) : Stream :=
  stream.rows.foldr (fun row rest =>
    match test row with
    | .ok true => rest.cons row
    | .ok false => rest
    | .error e => failing e) ⟨[], stream.errors⟩

def through (image : Row → Outcome Row) (stream : Stream) : Stream :=
  stream.rows.foldr (fun row rest =>
    match image row with
    | .ok row => rest.cons row
    | .error e => failing e) ⟨[], stream.errors⟩

def distinct (stream : Stream) : Stream := ⟨Row.firstOccurrences stream.rows, stream.errors⟩

-- All rows must be there before the first of them is known.
def arranged (arrange : List Row → Outcome (List Row)) (stream : Stream) : Stream :=
  if stream.errors = [] then ofOutcome (arrange stream.rows) else ⟨[], stream.errors⟩

-- At most `count` rows behind the first `skip` ones. Nothing is asked for behind the last of them, so an error that
-- comes later does not show.
def within (skip count : Nat) (stream : Stream) : Stream :=
  ⟨(stream.rows.drop skip).take count,
    if count = 0 ∨ skip + count ≤ stream.rows.length then [] else stream.errors⟩

-- The streams of several nodes: their rows one node after the other, unless one of them fails. Which of several
-- failures is heard of depends on who comes first.
def together (parts : List Stream) : Stream :=
  if parts.flatMap errors = [] then ⟨parts.flatMap rows, []⟩ else ⟨[], parts.flatMap errors⟩

end Stream

-- What the others hear of an error on a node.
def MapReduce.heard (node : ClusterNode) : EngineError → EngineError
  | .brokeOff cause => .nodeFailure node.id.text cause.text
  | e => e

def Stream.from (node : ClusterNode) (stream : Stream) : Stream :=
  ⟨stream.rows, stream.errors.map (MapReduce.heard node)⟩

-- The shards that a scan reads.
def Source.scanShards (ctx : Context) (store : Store) (table : TableId) : List ShardId :=
  match ctx.node? with
  | some node => (store.shards table).filter node.serves
  | none => store.shards table

theorem Source.scan_start (table : TableId) (fields : List String) (ctx : Context) (engine : Engine) :
    (Source.scan table fields).start ctx engine =
      .ok ⟨ctx.node?.map (·.id), Source.scanShards ctx engine.store table, []⟩ := by
  rw [Source.scanShards]
  cases here : ctx.node? with
  | none => simp only [Source.scan, Source.checked, here, Option.map_none]
  | some node => simp only [Source.scan, Source.checked, here, Option.map_some]

namespace SortKey

def keyed (keys : List SortKey) (seed : Option Row) (row : Row) : Outcome (List Value × Row) := do
  return (← valuesOf keys seed row, row)

def sortRows (keys : List SortKey) (seed : Option Row) (rows : List Row) : Outcome (List Row) := do
  sort keys (← rows.mapM (keyed keys seed))

end SortKey

namespace Plan

-- The stream of a plan that only reads, unless it cannot be started.
def stream (engine : Engine) (seed : Option Row) : Plan → Context → Outcome Stream
  | .scan table _ fields _, ctx =>
      .ok (.ofParts ((Source.scanShards ctx engine.store table).map
        (engine.store.readShard (ctx.node?.map (·.id)) table · fields)))
  | .values rows _, _ => .ok ⟨rows, []⟩
  | .filter predicate child, ctx => (child.stream engine seed ctx).map (.keep (predicate.isTrue · seed))
  | .project exprs schema child, ctx =>
      if exprs.length = schema.size then
        (child.stream engine seed ctx).map (.through fun row => (exprs.mapM (PlanExpr.eval row seed)).map Row.mk)
      else .error (.internal s!"projection of {exprs.length} expressions with {schema.size} columns")
  | .distinct child, ctx => do
      let stream ← child.stream engine seed ctx
      let _ ← HashIndex.ofConfig engine.config engine.directories
      return stream.distinct
  | .fanOut table child, ctx =>
      .ok (match Source.nodesFor ctx table engine with
        | .ok nodes =>
            .together (nodes.map fun node => (Stream.ofStart (child.stream engine seed (ctx.onNode nodes node))).from node)
        | .error e => .failing e)
  | .orderBy keys child, ctx => (child.stream engine seed ctx).map (.arranged (SortKey.sortRows keys seed))
  | .limit window child, ctx => (child.stream engine seed ctx).map (.within window.offset.toNat window.limit.toNat)
  | .showDatabases, _ => .ok ⟨engine.catalog.databaseRows, []⟩
  | .showTables database, _ =>
      .ok (.ofOutcome ((Catalog.ask (engine.catalog.tableList database)).map (·.map Table.listingRow)))
  | .showColumns database table, _ =>
      .ok (.ofOutcome ((Catalog.ask (engine.catalog.tableNamed database table)).map (·.fields.map Field.listingRow)))
  | _, _ => .ok ⟨[], []⟩

end Plan

end ShardQuery
