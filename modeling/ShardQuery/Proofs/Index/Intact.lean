import ShardQuery.Proofs.Index.Rounds
import ShardQuery.Proofs.Index.Shelved
import ShardQuery.Proofs.Stepwise
/-!
What is in order about an index at any time. Main statement: whatever calls it has answered or refused, its directory
leads to all of its pages as it should, and its entries stand in their buckets once and are counted, unless its medium
refused to take a page.
-/

set_option autoImplicit false

namespace ShardQuery.HashIndex

open PageMedium

variable {σ : Type}

-- The directory leads to each page by the low bits that its entries share, no page is overfull, and no entry stands
-- twice.
structure Intact (index : HashIndex σ) (pages : List BucketPage) : Prop where
  shallow : index.depth.toNat ≤ maxDepth.toNat
  layout : Layout index.directory index.depth.toNat pages
  fitting : ∀ page ∈ pages, page.entries.length ≤ index.bucketCapacity
  distinct : (entriesOf pages).Nodup
  counted : index.size = (entriesOf pages).length

section Intact

variable {index : HashIndex σ} {pages : List BucketPage} {fp : Fingerprint} {bucket : BucketPage}

theorem intact_home (intact : Intact index pages) (fp : Fingerprint) : ∃ bucket, home? index pages fp = some bucket :=
  intact.layout.allocated _ (slot_of_lt _ fp)

theorem intact_pages (intact : Intact index pages) : pages.length ≤ 2 ^ 24 :=
  Nat.le_trans (layout_pages_le intact.layout) (Nat.pow_le_pow_right (by decide) intact.shallow)

theorem single_intact (pool : BufferPool σ) (root : PageId) (number : root.toNat = 0) (capacity : Nat) :
    Intact ⟨pool, #[root], 0, capacity, 0⟩ [⟨root, 0, []⟩] where
  shallow := Nat.zero_le _
  layout := single_layout root number
  fitting := by simp
  distinct := List.nodup_nil
  counted := rfl

theorem doubled_intact (intact : Intact index pages) (room : ¬maxDepth ≤ index.depth) : Intact index.double pages := by
  obtain ⟨depth, below⟩ := doubled_depth index room
  refine ⟨depth ▸ below, ?_, intact.fitting, intact.distinct, intact.counted⟩
  rw [depth]
  exact doubled_layout intact.layout

theorem joined_intact (intact : Intact index pages) (home : home? index pages fp = some bucket)
    (new : fp ∉ bucket.entries) (room : bucket.entries.length < index.bucketCapacity) (pool : BufferPool σ) :
    Intact { index with pool, size := index.size + 1 }
      (pages.set (pageOf index.directory (slotOf index.depth.toNat fp)).toNat
        { bucket with entries := bucket.entries ++ [fp] }) := by
  have joined := joined_entries pages _ bucket fp home
  -- A fingerprint that stood anywhere would stand in the bucket of its slot.
  have nowhere : fp ∉ entriesOf pages := by
    intro among
    obtain ⟨other, member, held⟩ := List.mem_flatMap.mp among
    obtain ⟨page, found⟩ := List.mem_iff_getElem?.mp member
    have same := layout_entry_home intact.layout other page found fp held
    exact new (Option.some.inj (home.symm.trans same) ▸ held)
  refine ⟨intact.shallow, joined_layout intact.layout fp bucket home, fun page among => ?_, ?_, ?_⟩
  · rcases List.mem_or_eq_of_mem_set among with before | rfl
    · exact intact.fitting page before
    · simpa using Nat.succ_le_of_lt room
  · refine joined.nodup_iff.mpr (List.nodup_append.mpr ⟨intact.distinct, List.nodup_singleton fp, ?_⟩)
    intro old member other last equal
    exact nowhere (equal.trans (List.mem_singleton.mp last) ▸ member)
  · rw [joined.length_eq, List.length_append, List.length_singleton, ← intact.counted]

theorem divided_intact (intact : Intact index pages) (home : home? index pages fp = some bucket)
    (deeper : bucket.depth.toNat < index.depth.toNat) (pool : BufferPool σ) {new : PageId}
    (number : new.toNat = pages.length) :
    let old := pageOf index.directory (slotOf index.depth.toNat fp)
    Intact ({ index with pool }.redirect bucket.depth.toNat old new)
      (pages.set old.toNat (lowerHalf bucket) ++ [upperHalf bucket new]) := by
  intro old
  have shallow : index.depth.toNat ≤ 24 := intact.shallow
  have halves := halves_of_bucket bucket new (by omega)
  have redirects := redirected { index with pool } _ bucket.depth.toNat old new intact.layout.slots
  have divided := divided_entries pages old.toNat bucket new home
  have half (test : Fingerprint → Bool) : (bucket.entries.filter test).length ≤ index.bucketCapacity :=
    Nat.le_trans (List.length_filter_le _ _) (intact.fitting bucket (List.mem_of_getElem? home))
  refine ⟨intact.shallow, divided_layout intact.layout _ (slot_of_lt _ fp) home deeper number halves redirects,
    fun page among => ?_, divided.nodup_iff.mpr intact.distinct, intact.counted.trans divided.length_eq.symm⟩
  rcases List.mem_append.mp among with kept | moved
  · rcases List.mem_or_eq_of_mem_set kept with before | rfl
    · exact intact.fitting page before
    · exact half _
  · rw [List.mem_singleton.mp moved]
    exact half _

end Intact

theorem perform_on_pool_error {α : Type} {step : Step (BufferPool σ) α} {index : HashIndex σ} {pool : BufferPool σ}
    {e : EngineError} (failed : step.perform index.pool = (.error e, pool)) :
    (onPool step).perform index = (.error e, { index with pool }) := by
  rw [onPool, Step.perform_onPart, failed]

variable [PageMedium σ]

structure Stands (index : HashIndex σ) (order : List PageId) (pages : List BucketPage) : Prop where
  pool : index.pool.Shelved order pages
  capacity : index.bucketCapacity = BucketPage.capacity index.pool.pageSize
  intact : Intact index pages

-- An index is in order after a call, or the call fails as the medium does not take a page.
inductive Leaves {α : Type} (index : HashIndex σ) : Outcome α → HashIndex σ → Prop
  | standing {outcome later order pages} (stands : Stands later order pages) (goes : index.pool.Goes later.pool) :
      Leaves index outcome later
  | refused {e later} (refuses : Refuses index.pool.pageSize index.pool.store e later.pool.store) :
      Leaves index (.error e) later

section Calls

variable {index next later : HashIndex σ} {order : List PageId} {pages : List BucketPage} {fp : Fingerprint}
  {bucket : BucketPage} {α : Type} {outcome : Outcome α}

theorem leaves_after (goes : index.pool.Goes next.pool) (leaves : Leaves next outcome later) :
    Leaves index outcome later := by
  cases leaves with
  | standing stands goes' => exact .standing stands (BufferPool.goes_trans goes goes')
  | refused refuses => exact .refused (BufferPool.goes_refuses goes refuses)

theorem pool_stands (stands : Stands index order pages) {pool : BufferPool σ} {after : List PageId}
    (shelved : pool.Shelved after pages) (goes : index.pool.Goes pool) : Stands { index with pool } after pages :=
  ⟨shelved, goes.pageSize ▸ stands.capacity, ⟨stands.intact.shallow, stands.intact.layout, stands.intact.fitting,
    stands.intact.distinct, stands.intact.counted⟩⟩

-- What is answered makes no difference to what is left.
theorem answered_leaves {β : Type} {step : Step (HashIndex σ) α} (answer : β)
    (ends : ∃ outcome later, step.perform index = (outcome, later) ∧ Leaves index outcome later) :
    ∃ outcome later, (do let _ ← step; return answer : Step (HashIndex σ) β).perform index = (outcome, later) ∧
      Leaves index outcome later := by
  obtain ⟨outcome, later, done, leaves⟩ := ends
  cases leaves with
  | refused refuses => exact ⟨_, _, Step.perform_bind_error done, .refused refuses⟩
  | standing stands goes =>
      cases outcome with
      | ok _ => exact ⟨_, _, Step.perform_bind_ok done, .standing stands goes⟩
      | error e => exact ⟨_, _, Step.perform_bind_error done, .standing stands goes⟩

-- Every call begins with the bucket of the fingerprint, which is then the page used last.
theorem home_fetched (stands : Stands index order pages) (fp : Fingerprint) :
    let fetch := BufferPool.fetch (index.pageAt (index.slot fp))
    (∃ bucket pool before, home? index pages fp = some bucket ∧ fetch.perform index.pool = (.ok bucket, pool) ∧
      Stands { index with pool } (before ++ [index.pageAt (index.slot fp)]) pages ∧ index.pool.Goes pool) ∨
    ∃ e pool, fetch.perform index.pool = (.error e, pool) ∧
      ∀ {α : Type}, Leaves index (.error e : Outcome α) { index with pool } := by
  intro fetch
  obtain ⟨bucket, home⟩ := intact_home stands.intact fp
  obtain ⟨outcome, pool, fetched, leaves⟩ := BufferPool.fetch_leaves stands.pool home
  cases leaves with
  | found shelved goes => exact .inl ⟨bucket, pool, _, home, fetched, pool_stands stands shelved goes, goes⟩
  | failed shelved goes => exact .inr ⟨_, pool, fetched, .standing (pool_stands stands shelved goes) goes⟩
  | refused refuses => exact .inr ⟨_, pool, fetched, .refused refuses⟩

-- The bucket to divide was used last, so that it is found in memory again. Only the new page may need room.
theorem divide_leaves (stands : Stands index order pages) (home : home? index pages fp = some bucket)
    (last : order.getLast? = some (pageOf index.directory (slotOf index.depth.toNat fp)))
    (deeper : bucket.depth.toNat < index.depth.toNat) :
    ∃ outcome later, (divide (pageOf index.directory (slotOf index.depth.toNat fp)) bucket.depth).perform index =
      (outcome, later) ∧ Leaves index outcome later := by
  let old := pageOf index.directory (slotOf index.depth.toNat fp)
  have allocated := (List.getElem?_eq_some_iff.mp home).1
  have few := intact_pages stands.intact
  have fits := stands.pool.fitting bucket (List.mem_of_getElem? home)
  let emptied : BucketPage := { bucket with depth := bucket.depth + 1, entries := [] }
  obtain ⟨first, taken, shelved, goes⟩ := BufferPool.change_resident stands.pool home (List.mem_of_getLast? last)
    (fun page => { page with depth := bucket.depth + 1, entries := [] }) (Nat.zero_le _)
  obtain ⟨outcome, second, made, leaves⟩ :=
    BufferPool.new_page_leaves shelved (bucket.depth + 1) (by rw [List.length_set]; omega)
  cases leaves with
  | refused refuses =>
      refine ⟨_, _, (Step.perform_bind_ok (perform_on_pool taken)).trans
        (Step.perform_bind_error (perform_on_pool_error made)), .refused ?_⟩
      exact BufferPool.goes_refuses goes refuses
  | @made new rest _ number stays shelved goes' =>
      have goes := BufferPool.goes_trans goes goes'
      have filtered (pool : BufferPool σ) (goes : index.pool.Goes pool) (test : Fingerprint → Bool) :
          (bucket.entries.filter test).length ≤ BucketPage.capacity pool.pageSize :=
        goes.pageSize ▸ Nat.le_trans (List.length_filter_le _ _) fits
      rw [List.length_set] at number
      let blank : BucketPage := ⟨new, bucket.depth + 1, []⟩
      obtain ⟨⟨here, kept⟩, there, moved⟩ :=
        emptied_and_filled allocated emptied (lowerHalf bucket) blank (upperHalf bucket new)
      rw [← number] at there moved
      have resident : old ∈ rest ++ [new] := List.mem_append_left _ (stays old List.getLast?_concat)
      obtain ⟨third, lowered, shelved, goes'⟩ := BufferPool.change_resident shelved here resident
        (fun page => { page with entries := bucket.entries.filter fun fp => !upper bucket.depth.toNat fp })
        (filtered second goes _)
      have goes := BufferPool.goes_trans goes goes'
      have shelved : third.Shelved _ (pages.set old.toNat (lowerHalf bucket) ++ [blank]) := kept ▸ shelved
      have apart : new ≠ old := fun same => Nat.ne_of_gt allocated (number ▸ congrArg UInt32.toNat same)
      have resident : new ∈ (rest ++ [new]).filter (· != old) ++ [old] := by simp [apart]
      obtain ⟨pool, raised, shelved, goes'⟩ := BufferPool.change_resident shelved there resident
        (fun page => { page with entries := bucket.entries.filter (upper bucket.depth.toNat) }) (filtered third goes _)
      have goes := BufferPool.goes_trans goes goes'
      have shelved : pool.Shelved _ (pages.set old.toNat (lowerHalf bucket) ++ [upperHalf bucket new]) := moved ▸ shelved
      exact ⟨_, _, perform_divide taken made lowered raised, .standing
        ⟨shelved, goes.pageSize ▸ stands.capacity, divided_intact stands.intact home deeper pool number⟩ goes⟩

theorem deepen_leaves (stands : Stands index order pages) (home : home? index pages fp = some bucket) :
    (deepen bucket.depth).perform index = (.error tooDeep, index) ∨
    ∃ deeper, (deepen bucket.depth).perform index = (.ok (), deeper) ∧ Stands deeper order pages ∧
      deeper.pool = index.pool ∧ bucket.depth.toNat < deeper.depth.toNat ∧
      pageOf deeper.directory (slotOf deeper.depth.toNat fp) =
        pageOf index.directory (slotOf index.depth.toNat fp) := by
  have shallow := stands.intact.layout.shallow _ (slot_of_lt _ fp) bucket home
  rw [perform_deepen]
  by_cases same : bucket.depth = index.depth
  · rw [if_pos same]
    by_cases deep : maxDepth ≤ index.depth
    · exact .inl (if_pos deep)
    · refine .inr ⟨index.double, if_neg deep, ⟨stands.pool, stands.capacity, doubled_intact stands.intact deep⟩, rfl, ?_,
        double_leads index stands.intact.layout.slots deep _⟩
      rw [(doubled_depth index deep).1, same]
      exact Nat.lt_succ_self _
  · have different : bucket.depth.toNat ≠ index.depth.toNat := fun equal => same (UInt16.toNat_inj.mp equal)
    exact .inr ⟨index, if_neg same, stands, rfl, Nat.lt_of_le_of_ne shallow different, rfl⟩

theorem split_leaves (stands : Stands index order pages) (home : home? index pages fp = some bucket)
    (last : order.getLast? = some (pageOf index.directory (slotOf index.depth.toNat fp))) :
    ∃ outcome later, (split (index.slot fp)).perform index = (outcome, later) ∧ Leaves index outcome later := by
  obtain ⟨pool, fetched, shelved, goes⟩ := BufferPool.fetch_resident stands.pool home (List.mem_of_getLast? last)
  have read := pool_stands stands shelved goes
  have begun : (split (index.slot fp)).perform index =
      (do deepen bucket.depth; divide (index.pageAt (index.slot fp)) bucket.depth : Step (HashIndex σ) Unit).perform
        { index with pool } :=
    (Step.perform_bind_ok (Step.perform_get index)).trans (Step.perform_bind_ok (perform_on_pool fetched))
  rw [begun]
  rcases deepen_leaves read home with refused | ⟨deeper, done, stands', same, below, leads⟩
  · exact ⟨_, _, Step.perform_bind_error refused, .standing read goes⟩
  · have home' : home? deeper pages fp = some bucket := by
      rw [home?, bucket?, leads]
      exact home
    obtain ⟨outcome, later, divided, leaves⟩ :=
      divide_leaves stands' home' (leads.symm ▸ List.getLast?_concat) below
    rw [leads] at divided
    exact ⟨outcome, later, (Step.perform_bind_ok done).trans divided, leaves_after (same.symm ▸ goes) leaves⟩

theorem round_leaves (stands : Stands index order pages) (fp : Fingerprint) :
    ∃ outcome later, (round fp).perform index = (outcome, later) ∧ Leaves index outcome later := by
  rcases home_fetched stands fp with ⟨bucket, pool, before, home, fetched, read, goes⟩ | ⟨e, pool, failed, leaves⟩
  · by_cases member : fp ∈ bucket.entries
    · exact ⟨_, _, perform_round_held fetched member, .standing read goes⟩
    · by_cases room : bucket.entries.length < index.bucketCapacity
      · have fits : (bucket.entries ++ [fp]).length ≤ BucketPage.capacity pool.pageSize := by
          rw [← read.capacity, List.length_append]
          exact Nat.succ_le_of_lt room
        obtain ⟨changed, joined, shelved, goes'⟩ := BufferPool.change_resident read.pool home
          (List.mem_append_right _ (List.mem_singleton_self _))
          (fun page => { page with entries := page.entries ++ [fp] }) fits
        have goes := BufferPool.goes_trans goes goes'
        exact ⟨_, _, perform_round_joined fetched changed member room joined, .standing
          ⟨shelved, goes.pageSize ▸ stands.capacity, joined_intact stands.intact home member room changed⟩ goes⟩
      · obtain ⟨outcome, later, done, leaves⟩ := answered_leaves none (split_leaves read home List.getLast?_concat)
        exact ⟨outcome, later, (perform_round_full fetched member room).trans done, leaves_after goes leaves⟩
  · exact ⟨_, _, (Step.perform_bind_ok (Step.perform_get index)).trans
      (Step.perform_bind_error (perform_on_pool_error failed)), leaves⟩

theorem insert_within_leaves (rounds : Nat) (stands : Stands index order pages) (fp : Fingerprint) :
    ∃ outcome later, (insertWithin rounds fp).perform index = (outcome, later) ∧ Leaves index outcome later := by
  induction rounds generalizing index order pages with
  | zero => exact ⟨_, _, rfl, .standing stands (BufferPool.goes_refl _)⟩
  | succ rounds ih =>
      obtain ⟨outcome, next, done, leaves⟩ := round_leaves stands fp
      rw [perform_insert_within, done]
      cases leaves with
      | refused refuses => exact ⟨_, _, rfl, .refused refuses⟩
      | standing stands' goes =>
          match outcome with
          | .error e => exact ⟨_, _, rfl, .standing stands' goes⟩
          | .ok (some added) => exact ⟨_, _, rfl, .standing stands' goes⟩
          | .ok none =>
              obtain ⟨outcome, later, rest, leaves⟩ := ih stands'
              exact ⟨outcome, later, rest, leaves_after goes leaves⟩

theorem contains_leaves (stands : Stands index order pages) (fp : Fingerprint) :
    ∃ outcome later, (contains fp).perform index = (outcome, later) ∧ Leaves index outcome later := by
  rw [contains, Step.perform_bind_ok (Step.perform_get index)]
  rcases home_fetched stands fp with ⟨bucket, pool, before, home, fetched, read, goes⟩ | ⟨e, pool, failed, leaves⟩
  · exact ⟨_, _, Step.perform_bind_ok (perform_on_pool fetched), .standing read goes⟩
  · exact ⟨_, _, Step.perform_bind_error (perform_on_pool_error failed), leaves⟩

theorem clear_leaves (stands : Stands index order pages) :
    ∃ outcome later, clear.perform index = (outcome, later) ∧ Leaves index outcome later := by
  obtain ⟨outcome, pool, made, leaves⟩ :=
    BufferPool.new_page_leaves (BufferPool.clear_shelved stands.pool) 0 (by decide)
  rw [clear, Step.perform_bind_ok (Step.perform_modify _ index)]
  cases leaves with
  | refused refuses => exact ⟨_, _, Step.perform_bind_error (perform_on_pool_error made), .refused refuses⟩
  | made number last shelved goes =>
      have goes : index.pool.Goes pool := ⟨goes.pageSize, goes.reaches⟩
      exact ⟨_, _, Step.perform_bind_ok (perform_on_pool made), .standing
        ⟨shelved, goes.pageSize ▸ stands.capacity, single_intact pool _ number index.bucketCapacity⟩ goes⟩

def IndexCall.step : IndexCall → Step (HashIndex σ) Unit
  | .insert fp => do let _ ← HashIndex.insert fp
  | .contains fp => do let _ ← HashIndex.contains fp
  | .clear => HashIndex.clear

theorem watched_call_index (watched : Watched σ) (call : IndexCall) :
    (watched.call call).index = (call.step.perform watched.index).2 := by
  cases call with
  | insert fp =>
      rw [Watched.call, IndexCall.step, Step.perform_bind]
      rcases (insert fp).perform watched.index with ⟨e | added, later⟩
      · rfl
      · cases added <;> rfl
  | contains fp =>
      rw [Watched.call, IndexCall.step, Step.perform_bind]
      rcases (contains fp).perform watched.index with ⟨_ | _, later⟩ <;> rfl
  | clear =>
      rw [Watched.call, IndexCall.step]
      rcases HashIndex.clear.perform watched.index with ⟨_ | _, later⟩ <;> rfl

theorem call_leaves (stands : Stands index order pages) (call : IndexCall) :
    ∃ outcome later, call.step.perform index = (outcome, later) ∧ Leaves index outcome later := by
  cases call with
  | insert fp => exact answered_leaves () (insert_within_leaves (maxDepth.toNat + 2) stands fp)
  | contains fp => exact answered_leaves () (contains_leaves stands fp)
  | clear => exact clear_leaves stands

end Calls

section Shape

-- What holds of the directory in any case.
def Shaped (index : HashIndex σ) : Prop :=
  index.directory.size = 2 ^ index.depth.toNat ∧ index.depth.toNat ≤ maxDepth.toNat

def KeepsShape (before after : HashIndex σ) : Prop := before.Shaped → after.Shaped

variable {α β : Type} {step : Step (HashIndex σ) α} {next : α → Step (HashIndex σ) β}

omit [PageMedium σ] in
theorem bind_keeps_shape (first : step.Within KeepsShape) (second : ∀ a, (next a).Within KeepsShape) :
    (step >>= next).Within KeepsShape :=
  Step.bind_within (fun _ _ _ before after shaped => after (before shaped)) step next first second

omit [PageMedium σ] in
theorem on_pool_keeps_shape (step : Step (BufferPool σ) α) : (onPool step).Within KeepsShape :=
  fun _ shaped => shaped

omit [PageMedium σ] in
theorem deepen_keeps_shape (depth : UInt16) : (deepen depth : Step (HashIndex σ) Unit).Within KeepsShape := by
  intro index shaped
  rw [perform_deepen]
  split
  · split
    · exact shaped
    · rename_i room
      obtain ⟨deeper, below⟩ := doubled_depth index room
      refine ⟨?_, deeper ▸ below⟩
      rw [deeper, double, Array.size_append, shaped.1, Nat.pow_succ, Nat.mul_two]
  · exact shaped

theorem divide_keeps_shape (old : PageId) (depth : UInt16) :
    (divide old depth : Step (HashIndex σ) Unit).Within KeepsShape := by
  refine bind_keeps_shape (on_pool_keeps_shape _) fun full => ?_
  refine bind_keeps_shape (on_pool_keeps_shape _) fun new => ?_
  refine bind_keeps_shape (on_pool_keeps_shape _) fun _ => ?_
  refine bind_keeps_shape (on_pool_keeps_shape _) fun _ index shaped => ?_
  exact ⟨by simpa [redirect] using shaped.1, shaped.2⟩

theorem split_keeps_shape (slot : Nat) : (split slot : Step (HashIndex σ) Unit).Within KeepsShape := by
  refine bind_keeps_shape (fun _ shaped => shaped) fun index => ?_
  refine bind_keeps_shape (on_pool_keeps_shape _) fun bucket => ?_
  exact bind_keeps_shape (deepen_keeps_shape _) fun _ => divide_keeps_shape _ _

theorem insert_within_keeps_shape (rounds : Nat) (fp : Fingerprint) :
    (insertWithin rounds fp : Step (HashIndex σ) Bool).Within KeepsShape := by
  induction rounds with
  | zero => exact fun _ shaped => shaped
  | succ rounds ih =>
      refine bind_keeps_shape (fun _ shaped => shaped) fun index => ?_
      refine bind_keeps_shape (on_pool_keeps_shape _) fun page => ?_
      split
      · exact fun _ shaped => shaped
      · split
        · refine bind_keeps_shape (on_pool_keeps_shape _) fun _ => ?_
          exact bind_keeps_shape (fun _ shaped => shaped) fun _ _ shaped => shaped
        · exact bind_keeps_shape (split_keeps_shape _) fun _ => ih

theorem call_keeps_shape (call : IndexCall) : (call.step : Step (HashIndex σ) Unit).Within KeepsShape := by
  cases call with
  | insert fp => exact bind_keeps_shape (insert_within_keeps_shape _ fp) fun _ _ shaped => shaped
  | contains fp =>
      refine bind_keeps_shape (bind_keeps_shape (fun _ shaped => shaped) fun index => ?_) fun _ _ shaped => shaped
      exact bind_keeps_shape (on_pool_keeps_shape _) fun _ _ shaped => shaped
  | clear =>
      refine bind_keeps_shape (fun _ shaped => shaped) fun _ => ?_
      exact bind_keeps_shape (on_pool_keeps_shape _) fun _ _ _ => ⟨rfl, Nat.zero_le _⟩

theorem run_keeps_shape (calls : List IndexCall) (watched : Watched σ) (shaped : watched.index.Shaped) :
    (calls.foldl Watched.call watched).index.Shaped := by
  induction calls generalizing watched with
  | nil => exact shaped
  | cons call calls ih => exact ih _ (watched_call_index watched call ▸ call_keeps_shape call watched.index shaped)

end Shape

section Runs

variable {store : σ} {poolPages pageSize : Nat} {index : HashIndex σ}

-- The pages of a pool, as far as anything about it tells: they have been allocated, those that are not in memory are in
-- the store, and no fetch that succeeds gives another one.
structure Shows (pool : BufferPool σ) (pages : List BucketPage) : Prop where
  counted : pool.next.toNat = pages.length
  tracked : ∃ contents, pool.Tracks contents (BufferPool.shelf pages)
  fetched : ∀ id found, ((BufferPool.fetch id).perform pool).1 = .ok found → pages[id.toNat]? = some found

theorem shelved_shows {pool : BufferPool σ} {order : List PageId} {pages : List BucketPage}
    (shelved : pool.Shelved order pages) : Shows pool pages := by
  refine ⟨shelved.counted, shelved.tracks, fun id found done => ?_⟩
  cases listed : pages[id.toNat]? with
  | some page =>
      obtain ⟨outcome, later, fetched, leaves⟩ := BufferPool.fetch_leaves shelved listed
      rw [fetched] at done
      cases leaves with
      | found shelved goes => exact congrArg some (Except.ok.inj done)
      | failed shelved goes => cases done
      | refused refuses => cases done
  | none =>
      have above : pool.next ≤ id := by
        rw [UInt32.le_iff_toNat_le, shelved.counted]
        exact List.getElem?_eq_none_iff.mp listed
      rw [BufferPool.fetch, Step.perform_bind_error (BufferPool.perform_load_above above)] at done
      cases done

theorem made_stands (honest : Honest pageSize store noContents) (made : make store poolPages pageSize = .ok index) :
    ∃ order pages, Stands index order pages ∧ index.pool.pageSize = pageSize ∧
      Reaches pageSize store index.pool.store := by
  obtain ⟨large, small⟩ := made_sized made
  have begun := BufferPool.make_shelved store poolPages pageSize (PageStore.small_page_storable pageSize small) honest
  obtain ⟨outcome, pool, created, leaves⟩ := BufferPool.new_page_leaves begun 0 (by decide)
  unfold make at made
  rw [created] at made
  split at made
  · cases made
  · split at made
    · cases made
    · cases leaves with
      | refused refuses => cases made
      | @made root _ _ number last shelved goes =>
          have same := Except.ok.inj made
          subst same
          have sized : pool.pageSize = pageSize := goes.pageSize
          exact ⟨_, _, ⟨shelved, congrArg BucketPage.capacity sized.symm, single_intact pool root number _⟩, sized,
            goes.reaches⟩

-- One of the calls has failed as the medium did not take a page.
def RefusedBy (index : HashIndex σ) (calls : List IndexCall) : Prop :=
  ∃ before call after e, calls = before ++ call :: after ∧
    (call.step.perform (Watched.run index before).index).1 = .error e ∧
    Refuses index.pool.pageSize (Watched.run index before).index.pool.store e
      (call.step.perform (Watched.run index before).index).2.pool.store ∧
    index.pool.Goes (Watched.run index before).index.pool

theorem run_stands {order : List PageId} {pages : List BucketPage} (stands : Stands index order pages)
    (calls : List IndexCall) :
    (∃ order pages, Stands (Watched.run index calls).index order pages ∧
      index.pool.Goes (Watched.run index calls).index.pool) ∨ RefusedBy index calls := by
  induction calls using List.reverseRecOn with
  | nil => exact .inl ⟨order, pages, stands, BufferPool.goes_refl _⟩
  | append_singleton calls call ih =>
      rcases ih with ⟨order, pages, standing, goes⟩ | ⟨before, first, after, e, split, refused⟩
      · obtain ⟨outcome, later, performed, leaves⟩ := call_leaves standing call
        have next : (Watched.run index (calls ++ [call])).index = later := by
          rw [Watched.run, List.foldl_append, List.foldl_cons, List.foldl_nil, watched_call_index, ← Watched.run,
            performed]
        cases leaves with
        | standing stands' goes' => exact .inl ⟨_, _, next ▸ stands', next ▸ BufferPool.goes_trans goes goes'⟩
        | @refused e _ refuses =>
            refine .inr ⟨calls, call, [], e, rfl, by rw [performed], ?_, goes⟩
            rw [performed, ← goes.pageSize]
            exact refuses
      · exact .inr ⟨before, first, after ++ [call], e, by rw [split]; simp, refused⟩

theorem accepting_never_refuses {e : EngineError} {later : σ} (accepts : ReadsBack pageSize store noContents) :
    ¬Refuses pageSize store e later := by
  rintro ⟨reached, id, bytes, ⟨uses, fits, rfl⟩, sized, refused⟩
  have accepted := accepts.accepts uses fits id bytes sized
  rw [refused] at accepted
  cases accepted

theorem intact_unless_refused (honest : Honest pageSize store noContents)
    (made : make store poolPages pageSize = .ok index) (calls : List IndexCall) :
    let used := (Watched.run index calls).index
    (used.directory.size = 2 ^ used.depth.toNat ∧ used.depth.toNat ≤ 24) ∧
    ((∃ pages, Shows used.pool pages ∧ Intact used pages) ∨
      ∃ before call after e, calls = before ++ call :: after ∧
        let earlier := (Watched.run index before).index
        (call.step.perform earlier).1 = .error e ∧
          Refuses pageSize earlier.pool.store e (call.step.perform earlier).2.pool.store) ∧
    (ReadsBack pageSize store noContents → ∃ pages, Shows used.pool pages ∧ Intact used pages ∧
      ∀ id page, pages[id.toNat]? = some page → ((BufferPool.fetch id).perform used.pool).1 = .ok page) := by
  intro used
  obtain ⟨order, pages, stands, sized, reaches⟩ := made_stands honest made
  have ends := run_stands stands calls
  refine ⟨run_keeps_shape calls ⟨index, []⟩ ⟨stands.intact.layout.slots, stands.intact.shallow⟩, ?_, fun faithful => ?_⟩
  · rcases ends with ⟨order, pages, standing, -⟩ | ⟨before, call, after, e, split, failed, refuses, -⟩
    · exact .inl ⟨pages, shelved_shows standing.pool, standing.intact⟩
    · exact .inr ⟨before, call, after, e, split, failed, sized ▸ refuses⟩
  · rcases ends with ⟨order, pages, standing, -⟩ | ⟨before, call, after, e, split, failed, refuses, goes⟩
    · have shows := shelved_shows standing.pool
      refine ⟨pages, shows, standing.intact, fun id page listed => ?_⟩
      obtain ⟨kept, contents, holds, -⟩ := used_holds faithful made calls
      have allocated : id.toNat < kept.length := by
        rw [← holds.pool.counted, shows.counted]
        exact (List.getElem?_eq_some_iff.mp listed).1
      obtain ⟨later, known, fetched, -⟩ :=
        BufferPool.fetch_keeps used.pool kept contents id _ holds.pool (List.getElem?_eq_getElem allocated)
      have found := shows.fetched id _ (congrArg Prod.fst fetched)
      rw [fetched, Option.some.inj (listed.symm.trans found)]
    · have reached := reaches_refuses (sized ▸ goes.reaches) (sized ▸ refuses)
      exact (accepting_never_refuses faithful (reaches_refuses reaches reached)).elim

-- One entry to a bucket and two pages in memory, over a directory that can be written to.
theorem twice_split_intact :
    ∃ index, make (PageStore.inDirectory true 24) 2 24 = .ok index ∧
      let used := (Watched.run index [.insert ⟨0, 0⟩, .insert ⟨0, 2⟩]).index
      ∃ pages, Shows used.pool pages ∧ Intact used pages ∧ pages.length = 3 ∧ (entriesOf pages).length = 2 := by
  refine ⟨_, rfl, ?_⟩
  intro used
  obtain ⟨-, -, always⟩ := intact_unless_refused (PageStore.every_store_honest 24 (.inDirectory true 24))
    (show make (PageStore.inDirectory true 24) 2 24 = .ok _ from rfl) [.insert ⟨0, 0⟩, .insert ⟨0, 2⟩]
  obtain ⟨pages, shows, intact, -⟩ := always (PageStore.in_directory_reads_back 24 (by decide))
  exact ⟨pages, shows, intact, shows.counted.symm.trans (by decide +kernel),
    intact.counted.symm.trans (by decide +kernel)⟩

-- Where nothing can be written, the second split takes the entries out of its bucket and then finds no room for the
-- other half. The bucket is left empty and one bit deeper, while two slots still lead to it.
theorem emptied_bucket_left :
    ¬ ∀ (store : PageStore) (poolPages pageSize : Nat) (index : HashIndex PageStore),
      make store poolPages pageSize = .ok index → ∀ calls, ∃ pages,
        Shows (Watched.run index calls).index.pool pages ∧ Intact (Watched.run index calls).index pages := by
  intro always
  let calls : List IndexCall := [.insert ⟨0, 0⟩, .insert ⟨0, 2⟩]
  have made : ∃ index, make (PageStore.inDirectory false 24) 2 24 = .ok index ∧
      (Watched.run index calls).index.directory = #[0, 1, 0, 1] ∧ (Watched.run index calls).index.depth = 2 ∧
      ((BufferPool.fetch 0).perform (Watched.run index calls).index.pool).1 = .ok ⟨0, 2, []⟩ :=
    ⟨_, rfl, by decide +kernel, by decide +kernel, by decide +kernel⟩
  obtain ⟨index, made, directory, depth, emptied⟩ := made
  obtain ⟨pages, shows, intact⟩ := always _ _ _ index made calls
  have layout := intact.layout
  rw [directory, depth] at layout
  have found : pages[0]? = some ⟨0, 2, []⟩ := shows.fetched 0 _ emptied
  exact absurd ((layout.shared 0 (by decide) _ found 2 (by decide)).mp rfl) (by decide)

end Runs

end ShardQuery.HashIndex
