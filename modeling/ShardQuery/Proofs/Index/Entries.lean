import Mathlib.Data.List.Perm.Subperm
import Mathlib.Data.List.Nodup
import ShardQuery.Proofs.Index.Layout
import ShardQuery.Proofs.Index.Pool
/-!
What an index holds. Main statements: every operation of an index over a medium that reads back what was written
keeps the index and its list of members together, and an insertion has one of three ends.
-/

set_option autoImplicit false

namespace ShardQuery.HashIndex

open PageMedium

def entriesOf (pages : List BucketPage) : List Fingerprint := pages.flatMap (·.entries)

theorem entries_replaced (pages : List BucketPage) (page : Nat) (bucket : BucketPage)
    (found : pages[page]? = some bucket) :
    ∃ rest, (entriesOf pages).Perm (bucket.entries ++ rest) ∧
      ∀ fresh : BucketPage, (entriesOf (pages.set page fresh)).Perm (fresh.entries ++ rest) := by
  obtain ⟨bound, rfl⟩ := List.getElem?_eq_some_iff.mp found
  refine ⟨entriesOf (pages.take page) ++ entriesOf (pages.drop (page + 1)), ?_, ?_⟩
  · have split : pages = pages.take page ++ pages[page] :: pages.drop (page + 1) := by
      rw [List.cons_getElem_drop_succ, List.take_append_drop]
    conv => lhs; rw [split]
    simp only [entriesOf, List.flatMap_append, List.flatMap_cons]
    exact List.perm_append_comm_assoc _ _ _
  · intro fresh
    rw [List.set_eq_take_append_cons_drop, if_pos bound]
    simp only [entriesOf, List.flatMap_append, List.flatMap_cons]
    exact List.perm_append_comm_assoc _ _ _

variable {σ : Type}

theorem perform_on_pool {α : Type} {step : Step (BufferPool σ) α} {index : HashIndex σ}
    {pool : BufferPool σ} {a : α} (done : step.perform index.pool = (.ok a, pool)) :
    (onPool step).perform index = (.ok a, { index with pool }) := by
  rw [onPool, Step.perform_onPart, done]

variable [PageMedium σ]

structure Holds (index : HashIndex σ) (pages : List BucketPage) (contents : Contents)
    (members : List Fingerprint) : Prop where
  pool : index.pool.Keeps pages contents
  capacity : index.bucketCapacity = BucketPage.capacity index.pool.pageSize
  shallow : index.depth.toNat ≤ maxDepth.toNat
  layout : Layout index.directory index.depth.toNat pages
  held : (entriesOf pages).Perm members
  distinct : members.Nodup
  counted : index.size = members.length

variable {index : HashIndex σ} {pages : List BucketPage} {contents : Contents} {members : List Fingerprint}

def home? (index : HashIndex σ) (pages : List BucketPage) (fp : Fingerprint) : Option BucketPage :=
  bucket? index.directory pages (slotOf index.depth.toNat fp)

theorem home_exists (holds : Holds index pages contents members) (fp : Fingerprint) :
    ∃ bucket, home? index pages fp = some bucket :=
  holds.layout.allocated _ (slot_of_lt _ fp)

theorem member_iff_home (holds : Holds index pages contents members) (fp : Fingerprint) (bucket : BucketPage)
    (home : home? index pages fp = some bucket) : fp ∈ members ↔ fp ∈ bucket.entries := by
  rw [← holds.held.mem_iff, entriesOf, List.mem_flatMap]
  constructor
  · rintro ⟨other, member, among⟩
    obtain ⟨page, found⟩ := List.mem_iff_getElem?.mp member
    have same := layout_entry_home holds.layout other page found fp among
    rwa [Option.some.inj (home.symm.trans same)]
  · intro among
    exact ⟨bucket, List.mem_of_getElem? home, among⟩

theorem pool_replaced (holds : Holds index pages contents members) (pool : BufferPool σ) (known : Contents)
    (keeps : pool.Keeps pages known) (follows : index.pool.Follows pool) :
    Holds { index with pool } pages known members where
  pool := keeps
  capacity := follows.pageSize ▸ holds.capacity
  shallow := holds.shallow
  layout := holds.layout
  held := holds.held
  distinct := holds.distinct
  counted := holds.counted

theorem holds_capacity {later : HashIndex σ} {fresh : List BucketPage} {known : Contents} {after : List Fingerprint}
    (holds : Holds index pages contents members) (holds' : Holds later fresh known after)
    (follows : index.pool.Follows later.pool) : later.bucketCapacity = index.bucketCapacity := by
  rw [holds'.capacity, holds.capacity, follows.pageSize]

theorem contains_holds (holds : Holds index pages contents members) (fp : Fingerprint) :
    ∃ later known, (contains fp).perform index = (.ok (decide (fp ∈ members)), later) ∧
      Holds later pages known members ∧ index.pool.Grows later.pool := by
  obtain ⟨bucket, home⟩ := home_exists holds fp
  obtain ⟨pool, known, fetched, keeps, grows⟩ :=
    BufferPool.fetch_keeps index.pool pages contents _ bucket holds.pool home
  refine ⟨{ index with pool }, known, ?_, pool_replaced holds pool known keeps grows.toFollows, grows⟩
  have answer : bucket.entries.contains fp = decide (fp ∈ members) := by
    rw [List.contains_eq_mem, decide_eq_decide]
    exact (member_iff_home holds fp bucket home).symm
  rw [contains, Step.perform_bind_ok (Step.perform_get index)]
  exact (Step.perform_bind_ok (perform_on_pool fetched)).trans (by rw [answer, Step.perform_pure])

theorem single_holds (pool : BufferPool σ) (root : PageId) (number : root.toNat = 0)
    (keeps : pool.Keeps [⟨root, 0, []⟩] contents) :
    Holds ⟨pool, #[root], 0, BucketPage.capacity pool.pageSize, 0⟩ [⟨root, 0, []⟩] contents [] where
  pool := keeps
  capacity := rfl
  shallow := Nat.zero_le _
  layout := single_layout root number
  held := List.Perm.refl []
  distinct := List.nodup_nil
  counted := rfl

theorem clear_holds (holds : Holds index pages contents members) :
    ∃ later fresh known, clear.perform index = (.ok (), later) ∧ Holds later fresh known [] ∧
      index.pool.Follows later.pool := by
  have emptied := BufferPool.clear_keeps index.pool pages contents holds.pool
  obtain ⟨root, pool, known, made, number, keeps, grows⟩ :=
    BufferPool.new_page_keeps index.pool.clear [] contents 0 emptied (by decide)
  have capacity : index.bucketCapacity = BucketPage.capacity pool.pageSize := by
    rw [holds.capacity, grows.pageSize]
    rfl
  refine ⟨_, _, known, ?_, single_holds pool root number keeps, grows.pageSize, grows.capacity, grows.evictions⟩
  rw [← capacity]
  exact (Step.perform_bind_ok (Step.perform_modify _ index)).trans (Step.perform_bind_ok (perform_on_pool made))

theorem make_holds (store : σ) (poolPages pageSize : Nat) (large : 24 ≤ pageSize) (small : pageSize ≤ Config.maxPageSize)
    (faithful : ReadsBack pageSize store noContents) :
    ∃ index pages contents, make store poolPages pageSize = .ok index ∧ Holds index pages contents [] ∧
      index.pool.pageSize = pageSize ∧ index.pool.Whole := by
  have holding : BucketPage.capacity pageSize ≠ 0 := by
    unfold BucketPage.capacity BucketPage.headerSize BucketPage.entrySize
    omega
  have headed : BucketPage.headerSize ≤ pageSize := Nat.le_trans (by decide) large
  have begun := BufferPool.make_keeps store poolPages pageSize noContents headed
    (PageStore.small_page_storable pageSize small) faithful
  obtain ⟨root, pool, known, made, number, keeps, grows⟩ :=
    BufferPool.new_page_keeps (.make store poolPages pageSize) [] noContents 0 begun (by decide)
  have unspilled : pool.stats.evictions = 0 := by
    have alone := BufferPool.perform_new_page (.make store poolPages pageSize) _ 0 rfl
    rw [alone] at made
    rw [← (Prod.mk.inj made).2]
    rfl
  have empty : (BufferPool.make store poolPages pageSize).Whole := ⟨rfl, fun id below => absurd below (Nat.not_lt_zero _)⟩
  refine ⟨_, _, known, ?_, single_holds pool root number keeps, grows.pageSize,
    BufferPool.grows_whole grows empty unspilled⟩
  rw [make, if_neg (Nat.not_lt.mpr small), if_neg holding, made, grows.pageSize]
  rfl

end ShardQuery.HashIndex
