import ShardQuery.Index.Page
import ShardQuery.Index.PageStore
/-!
A bounded set of pages in memory over a medium for the others. The page used least recently is evicted first,
and written out when it may have changed since it was loaded.
-/

set_option autoImplicit false

namespace ShardQuery

structure Frame where
  page : BucketPage
  dirty : Bool
  lastUsed : Nat

structure PoolStats where
  hits : Nat
  misses : Nat
  evictions : Nat
  writeBacks : Nat
deriving DecidableEq

structure BufferPool (σ : Type) where
  store : σ
  frames : SortedMap PageId Frame
  capacity : Nat
  pageSize : Nat
  next : PageId
  clock : Nat
  stats : PoolStats

namespace BufferPool

variable {σ : Type}

-- At least two pages stay resident, since a bucket split touches two.
def make (store : σ) (capacity pageSize : Nat) : BufferPool σ :=
  ⟨store, .empty, max capacity 2, pageSize, 0, 0, ⟨0, 0, 0, 0⟩⟩

def resident (pool : BufferPool σ) : Nat := pool.frames.size

def tick : Step (BufferPool σ) Nat := do
  let pool ← get
  set { pool with clock := pool.clock + 1 }
  return pool.clock + 1

def older (a b : PageId × Frame) : PageId × Frame := if b.2.lastUsed < a.2.lastUsed then b else a

def victim? (pool : BufferPool σ) : Option (PageId × Frame) :=
  match pool.frames.entries with
  | [] => none
  | first :: rest => some (rest.foldl older first)

def onStore {α : Type} (step : Step σ α) : Step (BufferPool σ) α :=
  Step.onPart store (fun pool store => { pool with store }) step

def place (id : PageId) (frame : Frame) : Step (BufferPool σ) Unit :=
  modify fun pool => { pool with frames := pool.frames.insert id frame }

-- Forgets every page. What was written out stays there, unreachable.
def clear (pool : BufferPool σ) : BufferPool σ := { pool with frames := .empty, next := 0 }

variable [PageMedium σ]

def evictOne : Step (BufferPool σ) Unit := do
  let pool ← get
  match pool.victim? with
  | none => return
  | some (id, frame) =>
      set { pool with
        frames := pool.frames.erase id,
        stats := { pool.stats with evictions := pool.stats.evictions + 1 } }
      if frame.dirty then
        let bytes ← Step.ofOutcome (frame.page.encode pool.pageSize)
        onStore (PageMedium.write id bytes)
        modify fun pool => { pool with stats := { pool.stats with writeBacks := pool.stats.writeBacks + 1 } }

-- Evicts until one more page fits; no more evictions than resident pages are needed.
def makeRoomWithin : Nat → Step (BufferPool σ) Unit
  | 0 => return
  | bound + 1 => do
      let pool ← get
      if pool.resident < pool.capacity then return
      evictOne
      makeRoomWithin bound

def makeRoom : Step (BufferPool σ) Unit := do makeRoomWithin (← get).resident

def newPage (depth : UInt16) : Step (BufferPool σ) PageId := do
  makeRoom
  let id := (← get).next
  modify fun pool => { pool with next := pool.next + 1 }
  let now ← tick
  place id ⟨⟨id, depth, []⟩, true, now⟩
  return id

def load (id : PageId) : Step (BufferPool σ) Frame := do
  let pool ← get
  if pool.next ≤ id then throw (.internal s!"page {id.toNat} was never allocated")
  let page ← (do
    match pool.frames.get? id with
    | some frame =>
        set { pool with stats := { pool.stats with hits := pool.stats.hits + 1 } }
        return frame
    | none =>
        set { pool with stats := { pool.stats with misses := pool.stats.misses + 1 } }
        makeRoom
        let bytes ← onStore (PageMedium.read id)
        let page ← Step.ofOutcome (BucketPage.decode bytes)
        return ⟨page, false, 0⟩ : Step (BufferPool σ) Frame)
  let now ← tick
  let frame := { page with lastUsed := now }
  place id frame
  return frame

def fetch (id : PageId) : Step (BufferPool σ) BucketPage := return (← load id).page

def fetchAndChange (id : PageId) (change : BucketPage → BucketPage) : Step (BufferPool σ) BucketPage := do
  let frame ← load id
  place id ⟨change frame.page, true, frame.lastUsed⟩
  return frame.page

end BufferPool

end ShardQuery
