import ShardQuery.Index.BufferPool
/-!
A set of fingerprints as an extendible hash index: a directory indexed by the low bits of `lo`, and
bucket pages in a buffer pool. A full bucket is split by the next bit, and the directory doubles when
the bucket already uses all of its bits.
-/

set_option autoImplicit false

namespace ShardQuery

structure HashIndex (σ : Type) where
  pool : BufferPool σ
  -- The page of each slot; there are `2 ^ depth` slots.
  directory : Array PageId
  depth : UInt16
  bucketCapacity : Nat
  size : Nat

namespace HashIndex

variable {σ : Type}

def maxDepth : UInt16 := 24

def tooDeep : EngineError := .execution s!"hash index directory cannot grow past depth {maxDepth.toNat}"

-- An empty index, refused when its pages could not be counted or could hold no entry.
def make [PageMedium σ] (store : σ) (poolPages pageSize : Nat) : Outcome (HashIndex σ) :=
  if Config.maxPageSize < pageSize then
    .error (.validation s!"page size {pageSize} is larger than {Config.maxPageSize}")
  else if BucketPage.capacity pageSize = 0 then
    .error (.validation s!"page size {pageSize} cannot hold a bucket entry")
  else
    let (root, pool) := (BufferPool.newPage 0).perform (.make store poolPages pageSize)
    root.map fun root => ⟨pool, #[root], 0, BucketPage.capacity pageSize, 0⟩

def ofConfig (config : Config) (directories : Directories := PageStore.usableDirectory) :
    Outcome (HashIndex PageStore) :=
  make (PageStore.ofConfig config directories) config.poolPages config.pageSize

def slot (index : HashIndex σ) (fp : Fingerprint) : Nat := fp.lo.toNat % 2 ^ index.depth.toNat

def pageAt (index : HashIndex σ) (slot : Nat) : PageId := index.directory.getD slot 0

def onPool {α : Type} (step : Step (BufferPool σ) α) : Step (HashIndex σ) α :=
  Step.onPart pool (fun index pool => { index with pool }) step

def double (index : HashIndex σ) : HashIndex σ :=
  { index with directory := index.directory ++ index.directory, depth := index.depth + 1 }

def redirect (index : HashIndex σ) (bit : Nat) (old new : PageId) : HashIndex σ :=
  { index with directory := index.directory.mapIdx fun slot page =>
      if page == old && slot.testBit bit then new else page }

def pageCount (index : HashIndex σ) : Nat := index.pool.next.toNat

def hasSpilled (index : HashIndex σ) : Bool := 0 < index.pool.stats.evictions

variable [PageMedium σ]

def contains (fp : Fingerprint) : Step (HashIndex σ) Bool := do
  let index ← get
  let page ← onPool (BufferPool.fetch (index.pageAt (index.slot fp)))
  return page.entries.contains fp

def upper (bit : Nat) (fp : Fingerprint) : Bool := fp.lo.toNat.testBit bit

-- Doubles the directory for a bucket that uses all bits of its slots.
def deepen (depth : UInt16) : Step (HashIndex σ) Unit := do
  if depth == (← get).depth then
    if maxDepth ≤ (← get).depth then throw tooDeep
    modify double

def divide (old : PageId) (depth : UInt16) : Step (HashIndex σ) Unit := do
  let bit := depth.toNat
  let full ← onPool (BufferPool.fetchAndChange old fun page => { page with depth := depth + 1, entries := [] })
  let new ← onPool (BufferPool.newPage (depth + 1))
  let _ ← onPool (BufferPool.fetchAndChange old fun page =>
    { page with entries := full.entries.filter fun fp => !upper bit fp })
  let _ ← onPool (BufferPool.fetchAndChange new fun page => { page with entries := full.entries.filter (upper bit) })
  modify fun index => index.redirect bit old new

def split (slot : Nat) : Step (HashIndex σ) Unit := do
  let old := (← get).pageAt slot
  let bucket ← onPool (BufferPool.fetch old)
  deepen bucket.depth
  divide old bucket.depth

-- Splits until the bucket has room; each round uses up one bit of the depth.
def insertWithin : Nat → Fingerprint → Step (HashIndex σ) Bool
  | 0, _ => throw tooDeep
  | rounds + 1, fp => do
      let index ← get
      let slot := index.slot fp
      let id := index.pageAt slot
      let page ← onPool (BufferPool.fetch id)
      if page.entries.contains fp then return false
      if page.entries.length < index.bucketCapacity then
        let _ ← onPool (BufferPool.fetchAndChange id fun page => { page with entries := page.entries ++ [fp] })
        modify fun index => { index with size := index.size + 1 }
        return true
      split slot
      insertWithin rounds fp

def insert (fp : Fingerprint) : Step (HashIndex σ) Bool := insertWithin (maxDepth.toNat + 2) fp

def clear : Step (HashIndex σ) Unit := do
  modify fun index => { index with pool := index.pool.clear }
  let root ← onPool (BufferPool.newPage 0)
  modify fun index => { index with directory := #[root], depth := 0, size := 0 }

end HashIndex

end ShardQuery
