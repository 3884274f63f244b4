import ShardQuery.Proofs.Index.Pool
/-!
A buffer pool as a list of pages. Main statement: over a medium that reads back what was written, a pool answers every
run of calls as the plain list of its pages would, with no more of them in memory than it has room for. The list knows
of no eviction, so that pools of any two sizes answer alike, and it is empty after a clear.
-/

set_option autoImplicit false

namespace ShardQuery.BufferPool

open PageMedium

inductive PoolCall where
  | newPage (depth : UInt16)
  | fetch (id : PageId)
  -- The new depth and entries of the page, by what it holds. Its id stays.
  | change (id : PageId) (edit : BucketPage → UInt16 × List Fingerprint)
  | clear

inductive PoolAnswer where
  | made (id : PageId)
  | found (page : BucketPage)
  | cleared
deriving DecidableEq

def edited (edit : BucketPage → UInt16 × List Fingerprint) (page : BucketPage) : BucketPage :=
  { page with depth := (edit page).1, entries := (edit page).2 }

def unallocated (id : PageId) : EngineError := .internal s!"page {id.toNat} was never allocated"

namespace PoolCall

def step {σ : Type} [PageMedium σ] : PoolCall → Step (BufferPool σ) PoolAnswer
  | .newPage depth => return .made (← BufferPool.newPage depth)
  | .fetch id => return .found (← BufferPool.fetch id)
  | .change id edit => return .found (← fetchAndChange id (edited edit))
  | .clear => do
      modify BufferPool.clear
      return .cleared

-- The same call on the list that has the page of number `i` at place `i`. A change answers with the page it finds.
def onPages (pages : List BucketPage) : PoolCall → Outcome PoolAnswer × List BucketPage
  | .newPage depth => (.ok (.made (.ofNat pages.length)), pages ++ [⟨.ofNat pages.length, depth, []⟩])
  | .fetch id =>
      match pages[id.toNat]? with
      | some page => (.ok (.found page), pages)
      | none => (.error (unallocated id), pages)
  | .change id edit =>
      match pages[id.toNat]? with
      | some page => (.ok (.found page), pages.set id.toNat (edited edit page))
      | none => (.error (unallocated id), pages)
  | .clear => (.ok .cleared, [])

-- Page numbers have 32 bits, and a page takes no more entries than fit.
def Allowed (pageSize : Nat) (pages : List BucketPage) : PoolCall → Prop
  | .newPage _ => pages.length + 1 < 2 ^ 32
  | .change id edit => ∀ page ∈ pages[id.toNat]?, (edited edit page).entries.length ≤ BucketPage.capacity pageSize
  | .fetch _ => True
  | .clear => True

instance (pageSize : Nat) (pages : List BucketPage) (call : PoolCall) : Decidable (call.Allowed pageSize pages) :=
  match call with
  | .newPage _ => inferInstanceAs (Decidable (pages.length + 1 < 2 ^ 32))
  | .change id edit => inferInstanceAs (Decidable (∀ page ∈ pages[id.toNat]?,
      (edited edit page).entries.length ≤ BucketPage.capacity pageSize))
  | .fetch _ => .isTrue trivial
  | .clear => .isTrue trivial

end PoolCall

def AllAllowed (pageSize : Nat) (pages : List BucketPage) : List PoolCall → Prop
  | [] => True
  | call :: calls => call.Allowed pageSize pages ∧ AllAllowed pageSize (call.onPages pages).2 calls

instance decideAllAllowed (pageSize : Nat) (pages : List BucketPage) : (calls : List PoolCall) →
    Decidable (AllAllowed pageSize pages calls)
  | [] => .isTrue trivial
  | call :: calls => @instDecidableAnd _ _ _ (decideAllAllowed pageSize (call.onPages pages).2 calls)

def answersOnPages (pages : List BucketPage) : List PoolCall → List (Outcome PoolAnswer)
  | [] => []
  | call :: calls => (call.onPages pages).1 :: answersOnPages (call.onPages pages).2 calls

section Calls

variable {σ : Type} [PageMedium σ]

def after (pool : BufferPool σ) (call : PoolCall) : BufferPool σ := (call.step.perform pool).2

def answers (pool : BufferPool σ) : List PoolCall → List (Outcome PoolAnswer)
  | [] => []
  | call :: calls => (call.step.perform pool).1 :: answers (pool.after call) calls

theorem step_keeps (pool : BufferPool σ) (pages : List BucketPage) (contents : Contents) (call : PoolCall)
    (keeps : Keeps pool pages contents) (allowed : call.Allowed pool.pageSize pages) :
    ∃ later known, call.step.perform pool = ((call.onPages pages).1, later) ∧
      Keeps later (call.onPages pages).2 known ∧ Follows pool later := by
  have missing (id : PageId) (absent : pages[id.toNat]? = none) :
      (load id).perform pool = (.error (unallocated id), pool) := load_unallocated pool pages contents id keeps absent
  cases call with
  | newPage depth =>
      obtain ⟨id, later, known, made, number, kept, grows⟩ := new_page_keeps pool pages contents depth keeps allowed
      have named : UInt32.ofNat pages.length = id := number ▸ UInt32.ofNat_toNat
      refine ⟨later, known, ?_, ?_, grows.toFollows⟩
      · rw [PoolCall.step, Step.perform_bind_ok made, PoolCall.onPages, named]
        rfl
      · rw [PoolCall.onPages, named]
        exact kept
  | fetch id =>
      rw [PoolCall.step, PoolCall.onPages]
      cases allocated : pages[id.toNat]? with
      | some page =>
          obtain ⟨later, known, found, kept, grows⟩ := fetch_keeps pool pages contents id page keeps allocated
          exact ⟨later, known, Step.perform_bind_ok found, kept, grows.toFollows⟩
      | none =>
          refine ⟨pool, contents, ?_, keeps, follows_refl pool⟩
          rw [fetch, Step.perform_bind_error (Step.perform_bind_error (missing id allocated))]
  | change id edit =>
      rw [PoolCall.step, PoolCall.onPages]
      cases allocated : pages[id.toNat]? with
      | some page =>
          obtain ⟨later, known, found, kept, grows⟩ := fetch_and_change_keeps pool pages contents id page
            (edited edit) keeps allocated rfl (allowed page allocated)
          exact ⟨later, known, Step.perform_bind_ok found, kept, grows.toFollows⟩
      | none =>
          refine ⟨pool, contents, ?_, keeps, follows_refl pool⟩
          rw [fetchAndChange, Step.perform_bind_error (Step.perform_bind_error (missing id allocated))]
  | clear => exact ⟨pool.clear, contents, rfl, clear_keeps pool pages contents keeps, ⟨rfl, rfl, Nat.le_refl _⟩⟩

theorem calls_keep (calls : List PoolCall) (pool : BufferPool σ) (pages : List BucketPage) (contents : Contents)
    (keeps : Keeps pool pages contents) (allowed : AllAllowed pool.pageSize pages calls) :
    answers pool calls = answersOnPages pages calls ∧
      (calls.foldl after pool).resident ≤ pool.capacity := by
  induction calls generalizing pool pages contents with
  | nil => exact ⟨rfl, keeps.bounded⟩
  | cons call calls ih =>
      obtain ⟨later, known, performed, kept, follows⟩ := step_keeps pool pages contents call keeps allowed.1
      have reached : pool.after call = later := congrArg Prod.snd performed
      obtain ⟨same, bounded⟩ := ih later _ known kept (follows.pageSize ▸ allowed.2)
      rw [answers, answersOnPages, List.foldl_cons, reached, performed, same]
      exact ⟨rfl, follows.capacity ▸ bounded⟩

theorem pool_answers_as_pages (store : σ) (capacity pageSize : Nat) (headed : BucketPage.headerSize ≤ pageSize)
    (storable : pageSize ≤ Bytes.largest) (faithful : ReadsBack pageSize store noContents) (calls : List PoolCall)
    (allowed : AllAllowed pageSize [] calls) :
    answers (make store capacity pageSize) calls = answersOnPages [] calls ∧
      (calls.foldl after (make store capacity pageSize)).resident ≤ max capacity 2 ∧
      ∀ other, answers (make store other pageSize) calls = answers (make store capacity pageSize) calls := by
  have kept (capacity : Nat) := calls_keep calls _ _ _ (make_keeps store capacity pageSize noContents headed storable
    faithful) allowed
  exact ⟨(kept capacity).1, (kept capacity).2, fun other => (kept other).1.trans (kept capacity).1.symm⟩

end Calls

-- Three pages of one entry in a pool for two of them, so that the changed one is evicted and read back, and a clear.
def threePages : List PoolCall :=
  [.newPage 0, .change 0 fun page => (1, ⟨5, 7⟩ :: page.entries), .newPage 0, .newPage 0, .fetch 0, .fetch 3, .clear,
    .fetch 0, .newPage 2, .fetch 0]

theorem three_pages_in_two :
    answers (make PageStore.inMemory 2 24) threePages =
      [.ok (.made 0), .ok (.found ⟨0, 0, []⟩), .ok (.made 1), .ok (.made 2), .ok (.found ⟨0, 1, [⟨5, 7⟩]⟩),
        .error (unallocated 3), .ok .cleared, .error (unallocated 0), .ok (.made 0), .ok (.found ⟨0, 2, []⟩)] := by
  exact (pool_answers_as_pages PageStore.inMemory 2 24 (by decide) (by decide) (PageStore.in_memory_reads_back 24)
    threePages (by decide)).1

-- No buffer holds a page of half the machine's addresses, so that the first eviction breaks off.
theorem largest_pages_break_off :
    ¬ ∀ (store : PageStore) (capacity pageSize : Nat), BucketPage.headerSize ≤ pageSize →
      ReadsBack pageSize store noContents → ∀ calls, AllAllowed pageSize [] calls →
      answers (make store capacity pageSize) calls = answersOnPages [] calls := by
  intro alike
  have same := alike PageStore.inMemory 2 (2 ^ 63) (by decide) (PageStore.in_memory_reads_back (2 ^ 63))
    [.newPage 0, .newPage 0, .newPage 0] (by decide)
  have ended := congrArg (List.map Except.isOk) same
  exact absurd ended (by decide)

end ShardQuery.BufferPool
