import ShardQuery.Cursor.Source
import ShardQuery.Engine.Mutation
import ShardQuery.Index.HashIndex
/-!
Sources that hand rows out one by one: table scans, the operators that pass on the rows of their
child, and mutations, which have no rows.
-/

set_option autoImplicit false

namespace ShardQuery

structure Scan where
  -- The node to read on; none for the primary of each shard.
  node? : Option NodeId
  pending : List ShardId
  buffer : List Row

namespace Scan

def readOn (store : Store) (node? : Option NodeId) (table : TableId) (fields : List String) :
    List ShardId → Answer × Scan
  | [] => (.done, ⟨node?, [], []⟩)
  | shard :: rest =>
      match store.readShard node? table shard fields with
      | .error e => (.failed e, ⟨node?, rest, []⟩)
      | .ok [] => readOn store node? table fields rest
      | .ok (r :: buffer) => (.row r, ⟨node?, rest, buffer⟩)

theorem readOn_pending {store : Store} {node? : Option NodeId} {table : TableId} {fields : List String}
    {shards : List ShardId} {row : Row} {scan : Scan}
    (found : readOn store node? table fields shards = (.row row, scan)) :
    scan.pending.length < shards.length := by
  fun_induction readOn store node? table fields shards with
  | case1 => simp at found
  | case2 => simp at found
  | case3 shard rest empty ih => exact Nat.lt_succ_of_lt (ih found)
  | case4 =>
      simp only [Prod.mk.injEq] at found
      rw [← found.2]
      exact Nat.lt_succ_self _

def next (store : Store) (table : TableId) (fields : List String) (scan : Scan) : Answer × Scan :=
  match scan.buffer with
  | r :: rest => (.row r, { scan with buffer := rest })
  | [] => readOn store scan.node? table fields scan.pending

end Scan

namespace Source

-- The records of a table, shard by shard. A node reads only the shards that it serves.
def scan (table : TableId) (fields : List String) : Source Scan :=
  Source.checked
    { start := fun ctx engine =>
        let shards := engine.store.shards table
        .ok (match ctx.node? with
          | some node => ⟨some node.id, shards.filter node.serves, []⟩
          | none => ⟨none, shards, []⟩)
      pull := fun _ s engine =>
        let step := s.next engine.store table fields
        ⟨step.1, step.2, engine⟩
      close := fun s => { s with pending := [], buffer := [] }
      rank := fun s => (s.pending.length, s.buffer.length)
      spillFiles := fun _ => 0
      falls := fun {_ s _ before _ _} pulled => by
        obtain ⟨node?, pending, buffer⟩ := s
        simp only [Pulled.mk.injEq] at pulled
        obtain ⟨first, second, -⟩ := pulled
        cases buffer with
        | cons r rest =>
            simp only [Scan.next] at first second
            rw [← second]
            simp [Rank.Below]
        | nil =>
            simp only [Scan.next] at first second
            exact .inl (second ▸ Scan.readOn_pending (Prod.ext first rfl)) }

-- A change to the engine: made at the first pull, at most once, and never after closing.
def mutation (change : Context → Step Engine Unit) : Source Bool where
  start _ _ := .ok true
  pull ctx pending engine :=
    if pending then
      match Step.perform (do Step.ofOutcome (ctx.check engine.clock); change ctx) engine with
      | (.ok (), engine) => ⟨.done, false, engine⟩
      | (.error e, engine) => ⟨.failed e, false, engine⟩
    else ⟨.done, false, engine⟩
  close _ := false
  rank _ := (0, 0)
  spillFiles _ := 0
  falls pulled := by
    split at pulled
    · split at pulled <;> simp at pulled
    · simp at pulled

variable {σ : Type}

def pullFilter (child : Source σ) (predicate : PlanExpr) (seed : Option Row) (ctx : Context) (s : σ)
    (engine : Engine) : Pulled (σ × Unit) :=
  child.seek (fun row _ engine => ⟨predicate.isTrue row seed, (), engine⟩) ctx s () engine

def filter (child : Source σ) (predicate : PlanExpr) (seed : Option Row) : Source σ where
  start := child.start
  pull ctx s engine := (child.pullFilter predicate seed ctx s engine).map (·.1)
  close := child.close
  rank := child.rank
  spillFiles := child.spillFiles
  falls {ctx s t before after row} pulled := by
    generalize found : child.pullFilter predicate seed ctx s before = result at pulled
    obtain ⟨answer, ⟨u, ⟨⟩⟩, engine⟩ := result
    simp only [Pulled.map, Pulled.mk.injEq] at pulled
    obtain ⟨rfl, rfl, rfl⟩ := pulled
    exact child.seek_falls _ _ _ _ _ _ _ _ _ found

def project (child : Source σ) (exprs : List PlanExpr) (schema : Schema) (seed : Option Row) :
    Source σ where
  start ctx engine :=
    if exprs.length = schema.size then child.start ctx engine
    else .error (.internal s!"projection of {exprs.length} expressions with {schema.size} columns")
  pull ctx s engine :=
    match child.pull ctx s engine with
    | ⟨.row r, s, engine⟩ =>
        match exprs.mapM (PlanExpr.eval r seed) with
        | .ok values => ⟨.row ⟨values⟩, s, engine⟩
        | .error e => ⟨.failed e, s, engine⟩
    | other => other
  close := child.close
  rank := child.rank
  spillFiles := child.spillFiles
  falls {ctx s t before after row} pulled := by
    split at pulled
    · rename_i r next later found
      split at pulled
      · simp only [Pulled.mk.injEq] at pulled
        exact pulled.2.1 ▸ child.falls found
      · simp at pulled
    · exact child.falls pulled

structure Sightings where
  index : HashIndex PageStore
  reported : Bool

def judgeNew (channel : Channel) (row : Row) (seen : Sightings) (engine : Engine) :
    Judgement Sightings :=
  match (HashIndex.insert (Fingerprint.ofBytes row.canonical)).perform seen.index with
  | (.error e, index) => ⟨.error e, { seen with index }, engine⟩
  | (.ok fresh, index) =>
      if !seen.reported && index.hasSpilled then
        ⟨.ok fresh, ⟨index, true⟩,
          engine.warn channel s!"distinct spilled to disk after {index.size} distinct rows"⟩
      else ⟨.ok fresh, { seen with index }, engine⟩

-- The rows that were not seen before. The index goes as soon as there are no more rows.
def distinct (child : Source σ) (channel : Channel) : Source (σ × Option Sightings) where
  start ctx engine := do
    let s ← child.start ctx engine
    return (s, some ⟨← HashIndex.ofConfig engine.config engine.directories, false⟩)
  pull ctx s engine :=
    match s.2 with
    | none => ⟨.done, s, engine⟩
    | some seen =>
        match child.seek (judgeNew channel) ctx s.1 seen engine with
        | ⟨.row r, (s, seen), engine⟩ => ⟨.row r, (s, some seen), engine⟩
        | ⟨answer, (s, _), engine⟩ => ⟨answer, (s, none), engine⟩
  close s := (child.close s.1, none)
  rank s := child.rank s.1
  spillFiles s :=
    child.spillFiles s.1 + (s.2.map fun seen => seen.index.pool.store.fileCount).getD 0
  falls {ctx s t before after row} pulled := by
    obtain ⟨s, seen⟩ := s
    cases seen with
    | none => simp at pulled
    | some seen =>
        dsimp only at pulled
        split at pulled
        · rename_i r next learned later found
          simp only [Pulled.mk.injEq] at pulled
          obtain ⟨-, rfl, -⟩ := pulled
          exact child.seek_falls _ _ _ _ _ _ _ _ _ found
        · rename_i noRow found
          simp only [Pulled.mk.injEq] at pulled
          exact (noRow _ pulled.1).elim

structure Limited (σ : Type) where
  child : σ
  skip : Nat
  remaining : Nat
  closed : Bool

namespace Limited

def shut (child : Source σ) (s : Limited σ) : Limited σ :=
  if s.closed then s else { s with child := child.close s.child, closed := true }

def advance (child : Source σ) (ctx : Context) (remaining : Nat) :
    Nat → σ → Engine → Pulled (Limited σ)
  | 0, s, engine =>
      match child.pull ctx s engine with
      | ⟨.row r, s, engine⟩ => ⟨.row r, ⟨s, 0, remaining - 1, false⟩, engine⟩
      | ⟨answer, s, engine⟩ => ⟨answer, ⟨s, 0, remaining, false⟩, engine⟩
  | skip + 1, s, engine =>
      match child.pull ctx s engine with
      | ⟨.row _, s, engine⟩ => advance child ctx remaining skip s engine
      | ⟨answer, s, engine⟩ => ⟨answer, ⟨s, skip + 1, remaining, false⟩, engine⟩

theorem advance_falls {child : Source σ} {ctx : Context} {remaining skip : Nat} {s : σ} {t : Limited σ}
    {before after : Engine} {row : Row}
    (pulled : advance child ctx remaining skip s before = ⟨.row row, t, after⟩) :
    Rank.Below (child.rank t.child) (child.rank s) := by
  induction skip generalizing s before with
  | zero =>
      simp only [advance] at pulled
      split at pulled
      · rename_i r next later found
        simp only [Pulled.mk.injEq] at pulled
        obtain ⟨-, rfl, -⟩ := pulled
        exact child.falls found
      · rename_i noRow found
        simp only [Pulled.mk.injEq] at pulled
        exact (noRow _ pulled.1).elim
  | succ skip ih =>
      simp only [advance] at pulled
      split at pulled
      · rename_i r next later found
        exact (ih pulled).trans (child.falls found)
      · rename_i noRow found
        simp only [Pulled.mk.injEq] at pulled
        exact (noRow _ pulled.1).elim

end Limited

-- A window of the rows. The child is closed when a pull finds the window used up.
def limit (child : Source σ) (window : Window) : Source (Limited σ) where
  start ctx engine := do
    return ⟨← child.start ctx engine, window.offset.toNat, window.limit.toNat, false⟩
  pull ctx s engine :=
    if s.closed then ⟨.done, s, engine⟩
    else if s.remaining = 0 then ⟨.done, s.shut child, engine⟩
    else Limited.advance child ctx s.remaining s.skip s.child engine
  close s := s.shut child
  rank s := child.rank s.child
  spillFiles s := child.spillFiles s.child
  falls pulled := by
    split at pulled
    · simp at pulled
    · split at pulled
      · simp at pulled
      · exact Limited.advance_falls pulled

end Source

end ShardQuery
