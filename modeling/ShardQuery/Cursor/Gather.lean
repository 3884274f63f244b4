import ShardQuery.Cursor.Source
import ShardQuery.Engine.MapReduce
import ShardQuery.Plan.Basic
import ShardQuery.Sort.Runs
/-!
Sources that gather all their rows at the first pull and then hand them out: given rows, listings of
the catalog, sorted rows, and the rows of all nodes.
-/

set_option autoImplicit false

namespace ShardQuery

namespace Source

abbrev Stock := Option (List Row)

namespace Stock

def rank : Stock → Rank
  | none => (1, 0)
  | some rows => (0, rows.length)

def take : List Row → Answer × List Row
  | [] => (.done, [])
  | r :: rest => (.row r, rest)

end Stock

abbrev Gathering (τ : Type) := Outcome (List Row) × τ × Engine

-- Gathers at the first pull, and again at the next one when that failed.
def gathered {τ : Type} (start : Context → Engine → Outcome τ)
    (gather : Context → τ → Engine → Gathering τ) (close : τ → τ) (spillFiles : τ → Nat) :
    Source (τ × Stock) where
  start ctx engine := (start ctx engine).map (·, none)
  pull ctx s engine :=
    match s.2 with
    | some rows => ⟨(Stock.take rows).1, (s.1, some (Stock.take rows).2), engine⟩
    | none =>
        match gather ctx s.1 engine with
        | (.ok rows, left, engine) => ⟨(Stock.take rows).1, (left, some (Stock.take rows).2), engine⟩
        | (.error e, left, engine) => ⟨.failed e, (left, none), engine⟩
  close s := (close s.1, some [])
  rank s := Stock.rank s.2
  spillFiles s := spillFiles s.1
  falls {_ s _ _ _ _} pulled := by
    obtain ⟨left, stock⟩ := s
    cases stock with
    | some rows =>
        cases rows with
        | nil => simp [Stock.take] at pulled
        | cons r rest =>
            simp only [Stock.take, Pulled.mk.injEq] at pulled
            rw [← pulled.2.1]
            simp [Rank.Below, Stock.rank]
    | none =>
        dsimp only at pulled
        split at pulled
        · simp only [Pulled.mk.injEq] at pulled
          rw [← pulled.2.1]
          simp [Rank.Below, Stock.rank]
        · simp at pulled

def listing (rows : Context → Engine → Outcome (List Row)) : Source (Unit × Stock) :=
  (gathered (fun _ _ => .ok ()) (fun ctx _ engine => (rows ctx engine, (), engine)) id fun _ => 0).checked

end Source

namespace SortKey

-- Nulls come first in either direction; values without an order count as equal.
def compareValues (sortKey : SortKey) (a b : Value) : Ordering :=
  match a.isNull, b.isNull with
  | true, true => .eq
  | true, false => .lt
  | false, true => .gt
  | false, false =>
      let order := (a.order? b).getD .eq
      if sortKey.descending then order.swap else order

-- The first key that tells two rows apart decides.
def compareAll : List SortKey → List Value → List Value → Ordering
  | sortKey :: keys, a :: as, b :: bs => (sortKey.compareValues a b).then (compareAll keys as bs)
  | _, _, _ => .eq

def valuesOf (keys : List SortKey) (seed : Option Row) (row : Row) : Outcome (List Value) :=
  keys.mapM fun sortKey => sortKey.key.eval row seed

def uniform (keys : List SortKey) (rows : List (List Value)) : Bool :=
  (List.range keys.length).all fun i =>
    DataType.uniform (rows.filterMap fun values => values[i]?.bind Value.dataType?)

-- Rows with their keys, in the order of the keys; equal ones stay in the order they are in. Keys of mixed kinds
-- have no common order: their rows come as the comparisons of a stable sort leave them, if it has a result.
def arrange (keys : List SortKey) (keyed : List (List Value × Row)) : Option (List (List Value × Row)) :=
  if uniform keys (keyed.map (·.1)) then some (keyed.mergeSort fun a b => compareAll keys a.1 b.1 != .gt)
  else Sort.stable (fun a b => compareAll keys a.1 b.1 == .lt) keyed

def sort (keys : List SortKey) (keyed : List (List Value × Row)) : Outcome (List Row) :=
  match arrange keys keyed with
  | some arranged => .ok (arranged.map (·.2))
  | none => .error (.brokeOff .noTotalOrder)

end SortKey

namespace Source

variable {σ : Type}

def sorted (child : Source σ) (keys : List SortKey) (seed : Option Row) : Source (σ × Stock) :=
  gathered child.start
    (fun ctx s engine =>
      let drained := child.drain ctx s engine
      let rows : Outcome (List Row) := do
        let rows ← drained.rows
        let keyed ← rows.mapM fun row => do return (← SortKey.valuesOf keys seed row, row)
        ctx.check drained.engine.clock
        SortKey.sort keys keyed
      (rows, drained.state, drained.engine))
    child.close child.spillFiles

def collect (child : Source σ) (ctx : Context) (engine : Engine) : Response × Engine :=
  match child.start ctx engine with
  | .ok s =>
      let drained := child.drain ctx s engine
      (drained.rows, drained.engine)
  | .error e => (.error e, engine)

-- A map task between two of its turns, with the rows that it has pulled so far.
inductive MapStage (σ : Type) where
  | waiting
  | pulling (s : σ) (rows : List Row)
  | ended (response : Response)

def MapStage.ofAnswer (rows : List Row) (s : σ) : Answer → MapStage σ
  | .row r => .pulling s (rows ++ [r])
  | .done => .ended (.ok rows)
  | .failed e => .ended (.error e)

-- A failure of its own, after which the other tasks of a run are cancelled.
def fails : Response → Bool
  | .ok _ | .error .cancelled => false
  | .error _ => true

namespace MapStage

def failed : MapStage σ → Bool
  | .ended response => fails response
  | _ => false

-- A turn of a task: it starts, or it pulls one row.
def turn (child : Source σ) (ctx : Context) (engine : Engine) : MapStage σ → MapStage σ × Engine
  | .waiting =>
      match child.start ctx engine with
      | .ok s => (.pulling s [], engine)
      | .error e => (.ended (.error e), engine)
  | .pulling s rows =>
      let pulled := child.pull ctx s engine
      (.ofAnswer rows pulled.state pulled.answer, pulled.engine)
  | .ended response => (.ended response, engine)

def finish (child : Source σ) (ctx : Context) (engine : Engine) : MapStage σ → Response × Engine
  | .waiting => child.collect ctx engine
  | .pulling s rows =>
      let drained := child.drain ctx s engine
      (drained.rows.map (rows ++ ·), drained.engine)
  | .ended response => (response, engine)

end MapStage

structure MapRun (σ : Type) where
  stages : List (Context × MapStage σ)
  -- A task has failed.
  stopped : Bool
  engine : Engine

namespace MapRun

def opening (contexts : List Context) (engine : Engine) : MapRun σ :=
  ⟨contexts.map (·, .waiting), false, engine⟩

def turn (child : Source σ) (run : MapRun σ) (i : Nat) : MapRun σ :=
  match run.stages[i]? with
  | some (ctx, stage) =>
      let (stage, engine) := stage.turn child (ctx.stopped run.stopped) run.engine
      ⟨run.stages.set i (ctx, stage), run.stopped || stage.failed, engine⟩
  | none => run

def finish (child : Source σ) (stop : Bool) : List (Context × MapStage σ) → Engine → List Response × Engine
  | [], engine => ([], engine)
  | (ctx, stage) :: rest, engine =>
      let (response, engine) := stage.finish child (ctx.stopped stop) engine
      let (responses, engine) := finish child (stop || fails response) rest engine
      (response :: responses, engine)

end MapRun

-- The responses of all tasks, which take turns first and then finish one after the other.
def collectAll (child : Source σ) (turns : List Nat) (contexts : List Context) (engine : Engine) :
    List Response × Engine :=
  let run := turns.foldl (MapRun.turn child) (.opening contexts engine)
  MapRun.finish child run.stopped run.stages run.engine

-- The nodes that a run over a table goes to: those of the context, else those that serve its shards.
def nodesFor (ctx : Context) (table : TableId) (engine : Engine) : Outcome (List ClusterNode) :=
  if ctx.cluster.isEmpty then engine.store.placement (engine.store.shards table) else .ok ctx.cluster

def collectOn (child : Source σ) (ctx : Context) (nodes : List ClusterNode) (engine : Engine) :
    Response × Engine :=
  let (responses, engine) := child.collectAll ctx.turns (nodes.map (ctx.onNode nodes)) engine
  let response : Response := do
    ctx.check engine.clock
    MapReduce.reduce (List.zipWith MapReduce.reported nodes responses)
  (response, engine)

def fanOut (child : Source σ) (table : TableId) : Source (Unit × Stock) :=
  (gathered (fun _ _ => .ok ())
    (fun ctx _ engine =>
      match nodesFor ctx table engine with
      | .ok nodes =>
          let (rows, engine) := child.collectOn ctx nodes engine
          (rows, (), engine)
      | .error e => (.error e, (), engine))
    id fun _ => 0).checked

end Source

end ShardQuery
