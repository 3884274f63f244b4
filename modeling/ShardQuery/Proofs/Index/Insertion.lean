import Mathlib.Data.List.Flatten
import Mathlib.Data.List.Induction
import ShardQuery.Proofs.Index.Entries
/-!
Splits and insertions. Main statements: a split keeps what the index holds and puts the bucket one bit deeper, a round
of an insertion ends it or splits a full bucket, an insertion has one of three ends, after no more rounds than a
bucket can be deep and one, and an index tells that it has spilled exactly when a page has left memory.
-/

set_option autoImplicit false

namespace ShardQuery.HashIndex

open PageMedium

variable {σ : Type}

theorem perform_deepen (index : HashIndex σ) (depth : UInt16) :
    (deepen depth).perform index =
      if depth = index.depth then
        if maxDepth ≤ index.depth then (.error tooDeep, index) else (.ok (), index.double)
      else (.ok (), index) := by
  by_cases same : depth = index.depth
  · by_cases deep : maxDepth ≤ index.depth
    · simp [deepen, Step.perform_bind, same, deep]
    · simp [deepen, Step.perform_bind, same, deep]
  · simp [deepen, Step.perform_bind, same]

theorem doubled_depth (index : HashIndex σ) (room : ¬maxDepth ≤ index.depth) :
    index.double.depth.toNat = index.depth.toNat + 1 ∧ index.depth.toNat < maxDepth.toNat := by
  have below : index.depth.toNat < maxDepth.toNat := Nat.lt_of_not_le fun le => room (UInt16.le_iff_toNat_le.mpr le)
  refine ⟨?_, below⟩
  change (index.depth + 1).toNat = _
  rw [UInt16.toNat_add]
  exact Nat.mod_eq_of_lt (Nat.lt_of_le_of_lt below (by decide))

-- Doubling leads every number to the page it was led to before.
theorem double_leads (index : HashIndex σ) (slots : index.directory.size = 2 ^ index.depth.toNat)
    (room : ¬maxDepth ≤ index.depth) (n : Nat) :
    pageOf index.double.directory (n % 2 ^ index.double.depth.toNat) =
      pageOf index.directory (n % 2 ^ index.depth.toNat) := by
  have bound : n % 2 ^ (index.depth.toNat + 1) < 2 ^ (index.depth.toNat + 1) := Nat.mod_lt _ (Nat.two_pow_pos _)
  rw [(doubled_depth index room).1, double, page_of_doubled index.directory _ _ slots bound,
    Nat.mod_mod_of_dvd _ (Nat.pow_dvd_pow 2 (Nat.le_succ _))]

theorem redirected (index : HashIndex σ) (depth bit : Nat) (old new : PageId)
    (slots : index.directory.size = 2 ^ depth) :
    Redirects index.directory (index.redirect bit old new).directory depth bit old new where
  size := by simp [redirect]
  page := by
    intro slot bound
    have within : slot < index.directory.size := slots ▸ bound
    simp [redirect, pageOf, Array.getD, within]

theorem page_at_slot (index : HashIndex σ) (fp : Fingerprint) :
    index.pageAt (index.slot fp) = pageOf index.directory (slotOf index.depth.toNat fp) := rfl

-- The local depth of the bucket that the low bits of a number lead to.
def depthAt (index : HashIndex σ) (pages : List BucketPage) (n : Nat) : Nat :=
  (bucket? index.directory pages (n % 2 ^ index.depth.toNat)).elim 0 (·.depth.toNat)

theorem depth_at_home {index : HashIndex σ} {pages : List BucketPage} {fp : Fingerprint} {bucket : BucketPage}
    (home : home? index pages fp = some bucket) : index.depthAt pages fp.lo.toNat = bucket.depth.toNat := by
  rw [depthAt, show bucket? index.directory pages (fp.lo.toNat % 2 ^ index.depth.toNat) = some bucket from home]
  rfl

-- All numbers lead to buckets as deep as before.
structure Unsplit (index : HashIndex σ) (pages : List BucketPage) (later : HashIndex σ) (fresh : List BucketPage) :
    Prop where
  depth : later.depth = index.depth
  depths : ∀ n, later.depthAt fresh n = index.depthAt pages n

-- The numbers that lead to the bucket of the fingerprint lead to buckets one bit deeper, and the others do not.
structure Deepened (index : HashIndex σ) (pages : List BucketPage) (fp : Fingerprint) (later : HashIndex σ)
    (fresh : List BucketPage) : Prop where
  depth : later.depth.toNat = max index.depth.toNat (index.depthAt pages fp.lo.toNat + 1)
  depths : ∀ n, later.depthAt fresh n =
    if n % 2 ^ index.depthAt pages fp.lo.toNat = fp.lo.toNat % 2 ^ index.depthAt pages fp.lo.toNat
    then index.depthAt pages fp.lo.toNat + 1 else index.depthAt pages n

theorem spilled_iff_counted (index : HashIndex σ) : index.hasSpilled = true ↔ 0 < index.pool.stats.evictions :=
  decide_eq_true_iff

theorem whole_unspilled {index : HashIndex σ} (whole : index.pool.Whole) : index.hasSpilled = false :=
  decide_eq_false (Nat.not_lt.mpr (Nat.le_of_eq whole.evictions))

variable [PageMedium σ]
variable {index : HashIndex σ} {pages : List BucketPage} {contents : Contents} {members : List Fingerprint}

theorem double_holds (holds : Holds index pages contents members) (room : ¬maxDepth ≤ index.depth) :
    Holds index.double pages contents members := by
  obtain ⟨depth, below⟩ := doubled_depth index room
  refine ⟨holds.pool, holds.capacity, depth ▸ below, ?_, holds.held, holds.distinct, holds.counted⟩
  rw [depth]
  exact doubled_layout holds.layout

theorem deepen_holds (holds : Holds index pages contents members) (fp : Fingerprint) (bucket : BucketPage)
    (home : home? index pages fp = some bucket) :
    ((deepen bucket.depth).perform index = (.error tooDeep, index) ∧ bucket.depth.toNat = maxDepth.toNat) ∨
    ∃ deeper, (deepen bucket.depth).perform index = (.ok (), deeper) ∧ Holds deeper pages contents members ∧
      deeper.depth.toNat = max index.depth.toNat (bucket.depth.toNat + 1) ∧ deeper.pool = index.pool ∧
      ∀ n, pageOf deeper.directory (n % 2 ^ deeper.depth.toNat) = pageOf index.directory (n % 2 ^ index.depth.toNat) := by
  have shallow := holds.layout.shallow _ (slot_of_lt _ fp) bucket home
  rw [perform_deepen]
  by_cases same : bucket.depth = index.depth
  · rw [if_pos same]
    by_cases deep : maxDepth ≤ index.depth
    · left
      exact ⟨if_pos deep, Nat.le_antisymm (same ▸ holds.shallow) (same ▸ UInt16.le_iff_toNat_le.mp deep)⟩
    · right
      refine ⟨index.double, if_neg deep, double_holds holds deep, ?_, rfl, double_leads index holds.layout.slots deep⟩
      rw [(doubled_depth index deep).1, same, Nat.max_eq_right (Nat.le_succ _)]
  · right
    have different : bucket.depth.toNat ≠ index.depth.toNat := fun equal => same (UInt16.toNat_inj.mp equal)
    exact ⟨index, if_neg same, holds, by omega, rfl, fun _ => rfl⟩

def lowerHalf (bucket : BucketPage) : BucketPage :=
  { bucket with
    depth := bucket.depth + 1, entries := bucket.entries.filter fun fp => !upper bucket.depth.toNat fp }

def upperHalf (bucket : BucketPage) (new : PageId) : BucketPage :=
  ⟨new, bucket.depth + 1, bucket.entries.filter (upper bucket.depth.toNat)⟩

theorem halves_of_bucket (bucket : BucketPage) (new : PageId) (bound : bucket.depth.toNat + 1 < 2 ^ 16) :
    Halves bucket (lowerHalf bucket) (upperHalf bucket new) := by
  have deeper : (bucket.depth + 1).toNat = bucket.depth.toNat + 1 := by
    rw [UInt16.toNat_add]
    exact Nat.mod_eq_of_lt bound
  refine ⟨deeper, deeper, ?_, ?_⟩
  · intro fp member
    simpa [lowerHalf, upper] using member
  · intro fp member
    simpa [upperHalf, upper] using member

theorem halves_entries (bucket : BucketPage) (new : PageId) :
    ((lowerHalf bucket).entries ++ (upperHalf bucket new).entries).Perm bucket.entries := by
  have parted := List.filter_append_perm (upper bucket.depth.toNat) bucket.entries
  exact List.perm_append_comm.trans (by simpa [lowerHalf, upperHalf] using parted)

-- The entries of the two halves are those of the bucket, and all others stay.
theorem divided_entries (pages : List BucketPage) (page : Nat) (bucket : BucketPage) (new : PageId)
    (found : pages[page]? = some bucket) :
    (entriesOf (pages.set page (lowerHalf bucket) ++ [upperHalf bucket new])).Perm (entriesOf pages) := by
  obtain ⟨rest, before, after⟩ := entries_replaced pages page bucket found
  have moved : (entriesOf (pages.set page (lowerHalf bucket) ++ [upperHalf bucket new])).Perm
      ((lowerHalf bucket).entries ++ rest ++ (upperHalf bucket new).entries) := by
    simpa [entriesOf] using (after (lowerHalf bucket)).append_right (upperHalf bucket new).entries
  refine moved.trans (List.Perm.trans ?_ before.symm)
  rw [List.append_assoc]
  refine (List.Perm.append_left _ List.perm_append_comm).trans ?_
  rw [← List.append_assoc]
  exact (halves_entries bucket new).append_right rest

theorem joined_entries (pages : List BucketPage) (page : Nat) (bucket : BucketPage) (fp : Fingerprint)
    (found : pages[page]? = some bucket) :
    (entriesOf (pages.set page { bucket with entries := bucket.entries ++ [fp] })).Perm (entriesOf pages ++ [fp]) := by
  obtain ⟨rest, before, after⟩ := entries_replaced pages page bucket found
  refine (after { bucket with entries := bucket.entries ++ [fp] }).trans ?_
  rw [List.append_assoc]
  refine (List.Perm.append_left _ List.perm_append_comm).trans ?_
  rw [← List.append_assoc]
  exact before.symm.append_right [fp]

-- An entry joins a bucket of its own slot.
theorem joined_layout {directory : Array PageId} {depth : Nat} {pages : List BucketPage}
    (layout : Layout directory depth pages) (fp : Fingerprint) (bucket : BucketPage)
    (home : bucket? directory pages (slotOf depth fp) = some bucket) :
    Layout directory depth (pages.set (pageOf directory (slotOf depth fp)).toNat
      { bucket with entries := bucket.entries ++ [fp] }) := by
  have bound := slot_of_lt depth fp
  refine refilled_layout layout _ bound bucket _ home rfl fun other member => ?_
  rcases List.mem_append.mp member with old | last
  · exact layout.placed _ bound bucket home other old
  · rw [List.mem_singleton.mp last]
    exact (Nat.mod_mod_of_dvd _ (Nat.pow_dvd_pow 2 (layout.shallow _ bound bucket home))).symm

-- The list of pages while one of them is emptied, a blank one is added, and both are filled.
theorem emptied_and_filled {pages : List BucketPage} {page : Nat} (bound : page < pages.length)
    (emptied kept blank moved : BucketPage) :
    ((pages.set page emptied ++ [blank])[page]? = some emptied ∧
      (pages.set page emptied ++ [blank]).set page kept = pages.set page kept ++ [blank]) ∧
    (pages.set page kept ++ [blank])[pages.length]? = some blank ∧
      (pages.set page kept ++ [blank]).set pages.length moved = pages.set page kept ++ [moved] := by
  have within (filled : BucketPage) : page < (pages.set page filled).length := by rwa [List.length_set]
  have length : pages.length = (pages.set page kept).length := List.length_set.symm
  refine ⟨⟨?_, ?_⟩, ?_, ?_⟩
  · rw [List.getElem?_append_left (within emptied), List.getElem?_set_self bound]
  · rw [List.set_append_left _ _ (within emptied), List.set_set]
  · rw [length, List.getElem?_concat_length]
  · rw [length, List.set_append_right _ _ (Nat.le_refl _), Nat.sub_self, List.set_cons_zero]

theorem perform_divide {old new : PageId} {depth : UInt16} {full emptied blank : BucketPage}
    {first second third pool : BufferPool σ}
    (taken : (BufferPool.fetchAndChange old fun page => { page with depth := depth + 1, entries := [] }).perform
      index.pool = (.ok full, first))
    (made : (BufferPool.newPage (depth + 1)).perform first = (.ok new, second))
    (lowered : (BufferPool.fetchAndChange old fun page =>
      { page with entries := full.entries.filter fun fp => !upper depth.toNat fp }).perform second = (.ok emptied, third))
    (raised : (BufferPool.fetchAndChange new fun page =>
      { page with entries := full.entries.filter (upper depth.toNat) }).perform third = (.ok blank, pool)) :
    (divide old depth).perform index = (.ok (), { index with pool }.redirect depth.toNat old new) := by
  refine (Step.perform_bind_ok (perform_on_pool taken)).trans ?_
  refine (Step.perform_bind_ok (perform_on_pool made)).trans ?_
  refine (Step.perform_bind_ok (perform_on_pool lowered)).trans ?_
  refine (Step.perform_bind_ok (perform_on_pool raised)).trans ?_
  rw [Step.perform_modify]

-- While a bucket is divided its page is empty for a moment; only the pages at the end make a layout again.
theorem divide_keeps (index : HashIndex σ) (old : PageId) (bucket : BucketPage)
    (keeps : index.pool.Keeps pages contents) (found : pages[old.toNat]? = some bucket)
    (numbers : pages.length + 1 < 2 ^ 32) :
    ∃ new pool known, (divide old bucket.depth).perform index =
        (.ok (), { index with pool }.redirect bucket.depth.toNat old new) ∧ new.toNat = pages.length ∧
      pool.Keeps (pages.set old.toNat (lowerHalf bucket) ++ [upperHalf bucket new]) known ∧
      index.pool.Grows pool := by
  have allocated := (List.getElem?_eq_some_iff.mp found).1
  have fits := keeps.fitting bucket (List.mem_of_getElem? found)
  have filtered (pool : BufferPool σ) (sized : pool.pageSize = index.pool.pageSize) (test : Fingerprint → Bool) :
      (bucket.entries.filter test).length ≤ BucketPage.capacity pool.pageSize :=
    sized ▸ Nat.le_trans (List.length_filter_le _ _) fits
  let emptied : BucketPage := { bucket with depth := bucket.depth + 1, entries := [] }
  obtain ⟨first, known, taken, keeps, grown⟩ := BufferPool.fetch_and_change_keeps index.pool pages contents old bucket
    (fun page => { page with depth := bucket.depth + 1, entries := [] }) keeps found rfl (Nat.zero_le _)
  obtain ⟨new, second, known, made, number, keeps, grows⟩ :=
    BufferPool.new_page_keeps first _ known (bucket.depth + 1) keeps (by simpa using numbers)
  rw [List.length_set] at number
  have grown := BufferPool.grows_trans grown grows
  let blank : BucketPage := ⟨new, bucket.depth + 1, []⟩
  obtain ⟨⟨here, kept⟩, there, moved⟩ :=
    emptied_and_filled allocated emptied (lowerHalf bucket) blank (upperHalf bucket new)
  rw [← number] at there moved
  obtain ⟨third, known, lowered, keeps, grows⟩ := BufferPool.fetch_and_change_keeps second _ known old emptied
    (fun page => { page with entries := bucket.entries.filter fun fp => !upper bucket.depth.toNat fp }) keeps here rfl
    (filtered second grown.pageSize _)
  have grown := BufferPool.grows_trans grown grows
  have keeps : third.Keeps (pages.set old.toNat (lowerHalf bucket) ++ [blank]) known := kept ▸ keeps
  obtain ⟨pool, known, raised, keeps, grows⟩ := BufferPool.fetch_and_change_keeps third _ known new blank
    (fun page => { page with entries := bucket.entries.filter (upper bucket.depth.toNat) }) keeps there rfl
    (filtered third grown.pageSize _)
  have grown := BufferPool.grows_trans grown grows
  have keeps : pool.Keeps (pages.set old.toNat (lowerHalf bucket) ++ [upperHalf bucket new]) known := moved ▸ keeps
  exact ⟨new, pool, known, perform_divide taken made lowered raised, number, keeps, grown⟩

theorem divide_holds (holds : Holds index pages contents members) (fp : Fingerprint) (bucket : BucketPage)
    (home : home? index pages fp = some bucket) (deeper : bucket.depth.toNat < index.depth.toNat) :
    ∃ later fresh known, (divide (pageOf index.directory (slotOf index.depth.toNat fp)) bucket.depth).perform index =
        (.ok (), later) ∧ Holds later fresh known members ∧ index.pool.Grows later.pool ∧
      Deepened index pages fp later fresh := by
  let slot := slotOf index.depth.toNat fp
  let old := pageOf index.directory slot
  have bound : slot < 2 ^ index.depth.toNat := slot_of_lt _ fp
  have shallow : index.depth.toNat ≤ 24 := holds.shallow
  have few : pages.length ≤ 2 ^ 24 :=
    Nat.le_trans (layout_pages_le holds.layout) (Nat.pow_le_pow_right (by decide) shallow)
  obtain ⟨new, pool, known, done, number, keeps, grows⟩ :=
    divide_keeps index old bucket holds.pool home (by omega)
  have halves := halves_of_bucket bucket new (by omega)
  have redirects := redirected { index with pool } _ bucket.depth.toNat old new holds.layout.slots
  have layout := divided_layout holds.layout slot bound home deeper number halves redirects
  refine ⟨_, _, known, done, ⟨keeps, ?_, holds.shallow, layout, ?_, holds.distinct, holds.counted⟩, grows, ?_⟩
  · exact grows.pageSize ▸ holds.capacity
  · exact (divided_entries pages old.toNat bucket new home).trans holds.held
  · have allocated := (List.getElem?_eq_some_iff.mp home).1
    have shallower := holds.layout.shallow slot bound bucket home
    refine ⟨?_, fun n => ?_⟩
    · rw [depth_at_home home]
      exact (Nat.max_eq_left deeper).symm
    · have within : n % 2 ^ index.depth.toNat < 2 ^ index.depth.toNat := Nat.mod_lt _ (Nat.two_pow_pos _)
      have low (m : Nat) : m % 2 ^ index.depth.toNat % 2 ^ bucket.depth.toNat = m % 2 ^ bucket.depth.toNat :=
        Nat.mod_mod_of_dvd m (Nat.pow_dvd_pow 2 shallower)
      have together := holds.layout.shared slot bound bucket home _ within
      rw [low n, show slot % 2 ^ bucket.depth.toNat = _ from low fp.lo.toNat] at together
      rw [depth_at_home home, depthAt]
      refine (congrArg (Option.elim · 0 _) (divided_bucket (lowerHalf bucket) (upperHalf bucket new) holds.layout
        redirects allocated number _ within)).trans ?_
      by_cases divided : pageOf index.directory (n % 2 ^ index.depth.toNat) = old
      · rw [if_pos divided, if_pos (together.mp divided)]
        exact half_depth halves _
      · rw [if_neg divided, if_neg fun same => divided (together.mpr same), depthAt]

-- A bucket that cannot be divided is at the largest depth; one that can be leaves the fingerprint one bit deeper.
theorem split_holds (holds : Holds index pages contents members) (fp : Fingerprint) (bucket : BucketPage)
    (home : home? index pages fp = some bucket) :
    (∃ later known, (split (index.slot fp)).perform index = (.error tooDeep, later) ∧
      Holds later pages known members ∧ index.pool.Grows later.pool ∧ bucket.depth.toNat = maxDepth.toNat) ∨
    ∃ later fresh known, (split (index.slot fp)).perform index = (.ok (), later) ∧
      Holds later fresh known members ∧ index.pool.Grows later.pool ∧ Deepened index pages fp later fresh := by
  obtain ⟨pool, known, fetched, keeps, grows⟩ :=
    BufferPool.fetch_keeps index.pool pages contents _ bucket holds.pool home
  have read := pool_replaced holds pool known keeps grows.toFollows
  have begun : (split (index.slot fp)).perform index =
      (do deepen bucket.depth; divide (index.pageAt (index.slot fp)) bucket.depth : Step (HashIndex σ) Unit).perform
        { index with pool } :=
    (Step.perform_bind_ok (Step.perform_get index)).trans (Step.perform_bind_ok (perform_on_pool fetched))
  rw [begun]
  rcases deepen_holds read fp bucket home with ⟨refused, deep⟩ | ⟨deeper, done, holds', depth, same, leads⟩
  · left
    exact ⟨_, known, Step.perform_bind_error refused, read, grows, deep⟩
  · right
    have depths (n : Nat) : deeper.depthAt pages n = index.depthAt pages n := by
      rw [depthAt, depthAt, bucket?, bucket?, leads n]
    have home' : home? deeper pages fp = some bucket := by
      rw [home?, bucket?, slotOf, leads]
      exact home
    obtain ⟨later, fresh, learned, divided, holds'', grown, deepened⟩ :=
      divide_holds holds' fp bucket home' (by omega)
    rw [same] at grown
    refine ⟨later, fresh, learned, ?_, holds'', BufferPool.grows_trans grows grown, ?_, fun n => ?_⟩
    · rw [Step.perform_bind_ok done, page_at_slot, slotOf, ← leads]
      exact divided
    · rw [deepened.depth, depths, depth_at_home home, depth]
      exact Nat.max_eq_left (Nat.le_max_right _ _)
    · rw [deepened.depths n, depths, depths]

-- A fingerprint that is not held joins a bucket that is not full.
theorem joined_holds (holds : Holds index pages contents members) (fp : Fingerprint) (bucket : BucketPage)
    (home : home? index pages fp = some bucket) (new : fp ∉ members)
    (room : bucket.entries.length < index.bucketCapacity) :
    ∃ pool fresh known, (BufferPool.fetchAndChange (index.pageAt (index.slot fp))
        fun page => { page with entries := page.entries ++ [fp] }).perform index.pool = (.ok bucket, pool) ∧
      Holds { index with pool, size := index.size + 1 } fresh known (members ++ [fp]) ∧ index.pool.Grows pool ∧
      Unsplit index pages { index with pool, size := index.size + 1 } fresh := by
  let slot := slotOf index.depth.toNat fp
  rw [holds.capacity] at room
  obtain ⟨pool, known, changed, keeps, grows⟩ := BufferPool.fetch_and_change_keeps index.pool pages contents
    (pageOf index.directory slot) bucket (fun page => { page with entries := page.entries ++ [fp] }) holds.pool home rfl
    (by simpa using Nat.succ_le_of_lt room)
  refine ⟨pool, _, known, changed, ⟨keeps, grows.pageSize ▸ holds.capacity, holds.shallow, ?_, ?_, ?_, ?_⟩, grows,
    rfl, fun n => ?_⟩
  · exact joined_layout holds.layout fp bucket home
  · exact (joined_entries pages _ bucket fp home).trans (holds.held.append_right [fp])
  · exact List.nodup_append.mpr ⟨holds.distinct, List.nodup_singleton fp, by
      intro old member other last equal
      rw [equal, List.mem_singleton.mp last] at member
      exact new member⟩
  · simp [holds.counted]
  · -- The bucket takes the entry at the depth that it had.
    have allocated := (List.getElem?_eq_some_iff.mp home).1
    rw [depthAt, refilled_bucket index.directory pages slot _ _ allocated]
    split
    · rename_i together
      rw [depthAt, bucket?, together, show pages[(pageOf index.directory slot).toNat]? = some bucket from home]
      rfl
    · rfl

-- The members that agree with a fingerprint on as many low bits as a directory can use.
def neighbours (members : List Fingerprint) (fp : Fingerprint) : List Fingerprint :=
  members.filter fun other => other.lo.toNat % 2 ^ maxDepth.toNat == fp.lo.toNat % 2 ^ maxDepth.toNat

theorem deep_bucket_near (holds : Holds index pages contents members) (fp : Fingerprint) (bucket : BucketPage)
    (home : home? index pages fp = some bucket) (deep : bucket.depth.toNat = maxDepth.toNat) :
    bucket.entries.length ≤ (neighbours members fp).length := by
  have bound := slot_of_lt index.depth.toNat fp
  have shallow := holds.layout.shallow _ bound bucket home
  have inside : bucket.entries.Sublist (entriesOf pages) := by
    simpa [entriesOf] using (List.singleton_sublist.mpr (List.mem_of_getElem? home)).flatMap (·.entries)
  have near (other : Fingerprint) (member : other ∈ bucket.entries) :
      (other.lo.toNat % 2 ^ maxDepth.toNat == fp.lo.toNat % 2 ^ maxDepth.toNat) = true := by
    have same := holds.layout.placed _ bound bucket home other member
    rw [slotOf, Nat.mod_mod_of_dvd _ (Nat.pow_dvd_pow 2 shallow), deep] at same
    simpa using same
  have kept := inside.filter fun other => other.lo.toNat % 2 ^ maxDepth.toNat == fp.lo.toNat % 2 ^ maxDepth.toNat
  rw [List.filter_eq_self.mpr near] at kept
  exact Nat.le_trans kept.length_le (Nat.le_of_eq (holds.held.filter _).length_eq)

-- How an insertion ends: the fingerprint was there, or it is now, or too many others share its low bits.
inductive InsertEnds (capacity : Nat) (members : List Fingerprint) (fp : Fingerprint) :
    Outcome Bool → List Fingerprint → Prop
  | held (member : fp ∈ members) : InsertEnds capacity members fp (.ok false) members
  | joined (new : fp ∉ members) : InsertEnds capacity members fp (.ok true) (members ++ [fp])
  | refused (new : fp ∉ members) (crowded : capacity ≤ (neighbours members fp).length) :
      InsertEnds capacity members fp (.error tooDeep) members

-- One round of an insertion: `none` when it has split the bucket and goes on.
def round (fp : Fingerprint) : Step (HashIndex σ) (Option Bool) := do
  let index ← get
  let slot := index.slot fp
  let id := index.pageAt slot
  let page ← onPool (BufferPool.fetch id)
  if page.entries.contains fp then return some false
  if page.entries.length < index.bucketCapacity then
    let _ ← onPool (BufferPool.fetchAndChange id fun page => { page with entries := page.entries ++ [fp] })
    modify fun index => { index with size := index.size + 1 }
    return some true
  split slot
  return none

theorem perform_insert_within (rounds : Nat) (fp : Fingerprint) (index : HashIndex σ) :
    (insertWithin (rounds + 1) fp).perform index =
      match (round fp).perform index with
      | (.ok (some added), later) => (.ok added, later)
      | (.ok none, later) => (insertWithin rounds fp).perform later
      | (.error e, later) => (.error e, later) := by
  rw [insertWithin, round, Step.perform_bind_ok (Step.perform_get index), Step.perform_bind_ok (Step.perform_get index),
    Step.perform_bind, Step.perform_bind]
  rcases (onPool (BufferPool.fetch (index.pageAt (index.slot fp)))).perform index with ⟨_ | page, fetched⟩
  · rfl
  · by_cases member : page.entries.contains fp = true
    · simp only [if_pos member, Step.perform_pure]
    · by_cases room : page.entries.length < index.bucketCapacity
      · simp only [if_neg member, if_pos room, Step.perform_bind, Step.perform_modify, Step.perform_pure]
        split
        · rfl
        · rfl
      · simp only [if_neg member, if_neg room, Step.perform_bind, Step.perform_pure]
        split
        · rfl
        · rfl

section Rounds

variable {pool : BufferPool σ} {fp : Fingerprint} {bucket : BucketPage}
  (fetched : (BufferPool.fetch (index.pageAt (index.slot fp))).perform index.pool = (.ok bucket, pool))
include fetched

theorem perform_round_held (member : fp ∈ bucket.entries) :
    (round fp).perform index = (.ok (some false), { index with pool }) := by
  have found : bucket.entries.contains fp = true := List.contains_iff_mem.mpr member
  simp only [round, Step.perform_bind, Step.perform_get, perform_on_pool fetched, found, if_true, Step.perform_pure]

theorem perform_round_joined (changed : BufferPool σ) (absent : fp ∉ bucket.entries)
    (room : bucket.entries.length < index.bucketCapacity)
    (joined : (BufferPool.fetchAndChange (index.pageAt (index.slot fp))
      fun page => { page with entries := page.entries ++ [fp] }).perform pool = (.ok bucket, changed)) :
    (round fp).perform index = (.ok (some true), { index with pool := changed, size := index.size + 1 }) := by
  have missing : ¬bucket.entries.contains fp = true := fun found => absent (List.contains_iff_mem.mp found)
  have placed : (onPool (BufferPool.fetchAndChange (index.pageAt (index.slot fp))
      fun page => { page with entries := page.entries ++ [fp] })).perform { index with pool } =
        (.ok bucket, { index with pool := changed }) := perform_on_pool joined
  simp only [round, Step.perform_bind, Step.perform_get, perform_on_pool fetched, if_neg missing, if_pos room, placed,
    Step.perform_modify, Step.perform_pure]

theorem perform_round_full (absent : fp ∉ bucket.entries) (full : ¬bucket.entries.length < index.bucketCapacity) :
    (round fp).perform index =
      (do split (index.slot fp); return none : Step (HashIndex σ) (Option Bool)).perform { index with pool } := by
  have missing : ¬bucket.entries.contains fp = true := fun found => absent (List.contains_iff_mem.mp found)
  simp only [round, Step.perform_bind, Step.perform_get, perform_on_pool fetched, if_neg missing, if_neg full]

end Rounds

-- What one round does: it ends as an insertion does, or it splits the full bucket that the fingerprint belongs to.
inductive RoundEnds (index : HashIndex σ) (pages : List BucketPage) (members : List Fingerprint) (fp : Fingerprint) :
    Outcome (Option Bool) → HashIndex σ → List BucketPage → List Fingerprint → Prop
  | held {later} (member : fp ∈ members) (unsplit : Unsplit index pages later pages) :
      RoundEnds index pages members fp (.ok (some false)) later pages members
  | joined {later fresh} (new : fp ∉ members) (unsplit : Unsplit index pages later fresh) :
      RoundEnds index pages members fp (.ok (some true)) later fresh (members ++ [fp])
  | refused {later} (new : fp ∉ members) (crowded : index.bucketCapacity ≤ (neighbours members fp).length) :
      RoundEnds index pages members fp (.error tooDeep) later pages members
  | split {later fresh} (new : fp ∉ members) (bucket : BucketPage) (home : home? index pages fp = some bucket)
      (full : index.bucketCapacity ≤ bucket.entries.length) (deepened : Deepened index pages fp later fresh) :
      RoundEnds index pages members fp (.ok none) later fresh members

theorem round_ends (holds : Holds index pages contents members) (fp : Fingerprint) :
    ∃ outcome later fresh known after, (round fp).perform index = (outcome, later) ∧ Holds later fresh known after ∧
      index.pool.Grows later.pool ∧ RoundEnds index pages members fp outcome later fresh after := by
  obtain ⟨bucket, home⟩ := home_exists holds fp
  obtain ⟨pool, known, fetched, keeps, grows⟩ :=
    BufferPool.fetch_keeps index.pool pages contents _ bucket holds.pool home
  have read := pool_replaced holds pool known keeps grows.toFollows
  have among := member_iff_home holds fp bucket home
  by_cases member : fp ∈ bucket.entries
  · exact ⟨_, _, pages, known, members, perform_round_held fetched member, read, grows,
      .held (among.mpr member) ⟨rfl, fun _ => rfl⟩⟩
  · have new : fp ∉ members := fun held => member (among.mp held)
    by_cases room : bucket.entries.length < index.bucketCapacity
    · obtain ⟨changed, fresh, learned, joined, holds', grown, unsplit⟩ := joined_holds read fp bucket home new room
      exact ⟨_, _, fresh, learned, members ++ [fp], perform_round_joined fetched changed member room joined, holds',
        BufferPool.grows_trans grows grown, .joined new ⟨unsplit.depth, unsplit.depths⟩⟩
    · have begun := perform_round_full fetched member room
      rcases split_holds read fp bucket home with ⟨later, learned, failed, holds', grown, deep⟩ |
        ⟨later, fresh, learned, done, holds', grown, deepened⟩
      · have crowded := Nat.le_trans (Nat.le_of_not_lt room) (deep_bucket_near holds fp bucket home deep)
        exact ⟨_, later, pages, learned, members, begun.trans (Step.perform_bind_error failed), holds',
          BufferPool.grows_trans grows grown, .refused new crowded⟩
      · exact ⟨_, later, fresh, learned, members, begun.trans (Step.perform_bind_ok done), holds',
          BufferPool.grows_trans grows grown,
          .split new bucket home (Nat.le_of_not_lt room) ⟨deepened.depth, deepened.depths⟩⟩

-- The loop of an insertion, with the number of its rounds.
inductive Loops (fp : Fingerprint) : HashIndex σ → Nat → Outcome Bool → HashIndex σ → Prop
  | last {index later : HashIndex σ} {added : Bool} (ended : (round fp).perform index = (.ok (some added), later)) :
      Loops fp index 1 (.ok added) later
  | failed {index later : HashIndex σ} {e : EngineError} (ended : (round fp).perform index = (.error e, later)) :
      Loops fp index 1 (.error e) later
  | again {index next later : HashIndex σ} {rounds : Nat} {outcome : Outcome Bool}
      (split : (round fp).perform index = (.ok none, next)) (rest : Loops fp next rounds outcome later) :
      Loops fp index (rounds + 1) outcome later

theorem perform_loops {fp : Fingerprint} {index later : HashIndex σ} {rounds bound : Nat} {outcome : Outcome Bool}
    (loops : Loops fp index rounds outcome later) (enough : rounds ≤ bound) :
    (insertWithin bound fp).perform index = (outcome, later) := by
  induction loops generalizing bound with
  | last ended =>
      obtain ⟨bound, rfl⟩ := Nat.exists_eq_add_of_le' enough
      rw [perform_insert_within, ended]
  | failed ended =>
      obtain ⟨bound, rfl⟩ := Nat.exists_eq_add_of_le' enough
      rw [perform_insert_within, ended]
  | again split rest ih =>
      cases bound with
      | zero => cases enough
      | succ bound =>
          rw [perform_insert_within, split]
          exact ih (Nat.le_of_succ_le_succ enough)

theorem depth_at_le (holds : Holds index pages contents members) (n : Nat) :
    index.depthAt pages n ≤ index.depth.toNat := by
  have bound : n % 2 ^ index.depth.toNat < 2 ^ index.depth.toNat := Nat.mod_lt _ (Nat.two_pow_pos _)
  obtain ⟨bucket, found⟩ := holds.layout.allocated _ bound
  rw [depthAt, found]
  exact holds.layout.shallow _ bound bucket found

-- Every round that does not end puts the bucket of the fingerprint one bit deeper, and no bucket is deeper than the
-- largest depth.
theorem loops_end (left : Nat) (holds : Holds index pages contents members) (fp : Fingerprint)
    (enough : maxDepth.toNat ≤ left + index.depthAt pages fp.lo.toNat) :
    ∃ rounds outcome later fresh known after, Loops fp index rounds outcome later ∧ rounds ≤ left + 1 ∧
      Holds later fresh known after ∧ index.pool.Grows later.pool ∧
      InsertEnds index.bucketCapacity members fp outcome after := by
  induction left using Nat.strongRecOn generalizing index pages contents members with
  | ind left ih =>
      obtain ⟨_, later, fresh, known, after, ended, holds', grows, ends⟩ := round_ends holds fp
      cases ends with
      | held member unsplit =>
          exact ⟨1, _, later, pages, known, members, .last ended, Nat.le_add_left 1 left, holds', grows, .held member⟩
      | joined new unsplit =>
          exact ⟨1, _, later, fresh, known, _, .last ended, Nat.le_add_left 1 left, holds', grows, .joined new⟩
      | refused new crowded =>
          exact ⟨1, _, later, pages, known, members, .failed ended, Nat.le_add_left 1 left, holds', grows,
            .refused new crowded⟩
      | split new bucket home full deepened =>
          have deeper : later.depthAt fresh fp.lo.toNat = index.depthAt pages fp.lo.toNat + 1 :=
            (deepened.depths fp.lo.toNat).trans (if_pos rfl)
          have shallow := Nat.le_trans (depth_at_le holds' fp.lo.toNat) holds'.shallow
          obtain ⟨fewer, rfl⟩ : ∃ fewer, left = fewer + 1 := Nat.exists_eq_add_of_le' (by omega)
          obtain ⟨rounds, outcome, last, fresh, learned, after, loops, few, result, grown, ends⟩ :=
            ih fewer (Nat.lt_succ_self fewer) holds' (by omega)
          exact ⟨rounds + 1, outcome, last, fresh, learned, after, .again ended loops, Nat.succ_le_succ few, result,
            BufferPool.grows_trans grows grown, holds_capacity holds holds' grows.toFollows ▸ ends⟩

theorem insert_ends (holds : Holds index pages contents members) (fp : Fingerprint) :
    ∃ outcome later fresh known after, (insert fp).perform index = (outcome, later) ∧
      Holds later fresh known after ∧ index.pool.Grows later.pool ∧
      InsertEnds index.bucketCapacity members fp outcome after := by
  obtain ⟨rounds, outcome, later, fresh, known, after, loops, few, result⟩ :=
    loops_end maxDepth.toNat holds fp (Nat.le_add_right _ _)
  exact ⟨outcome, later, fresh, known, after, perform_loops loops (Nat.le_succ_of_le few), result⟩

theorem neighbours_lt (all : List Fingerprint) (fp : Fingerprint) (known : fp ∈ all) (distinct : members.Nodup)
    (inside : members ⊆ all) (new : fp ∉ members) : (neighbours members fp).length < (neighbours all fp).length := by
  have near : fp ∈ neighbours all fp := List.mem_filter.mpr ⟨known, by simp⟩
  have apart : (fp :: neighbours members fp).Nodup :=
    List.nodup_cons.mpr ⟨fun among => new (List.mem_of_mem_filter among), distinct.filter _⟩
  have contained : fp :: neighbours members fp ⊆ neighbours all fp := by
    intro other among
    rcases List.mem_cons.mp among with same | old
    · exact same ▸ near
    · exact List.mem_filter.mpr ⟨inside (List.mem_of_mem_filter old), (List.mem_filter.mp old).2⟩
  exact (apart.subperm contained).length_le

-- With room for all fingerprints that share their low bits, an insertion tells whether the fingerprint is new.
theorem insert_uncrowded (holds : Holds index pages contents members) (all : List Fingerprint) (fp : Fingerprint)
    (known : fp ∈ all) (inside : members ⊆ all) (room : (neighbours all fp).length ≤ index.bucketCapacity) :
    ∃ later fresh learned, (insert fp).perform index = (.ok (decide (fp ∉ members)), later) ∧
      Holds later fresh learned (if fp ∈ members then members else members ++ [fp]) ∧
      index.pool.Grows later.pool := by
  obtain ⟨outcome, later, fresh, learned, after, ended, holds', grows, ends⟩ := insert_ends holds fp
  refine ⟨later, fresh, learned, ?_⟩
  rw [ended]
  cases ends with
  | held member => exact ⟨by simp [member], by rwa [if_pos member], grows⟩
  | joined new => exact ⟨by simp [new], by rwa [if_neg new], grows⟩
  | refused new crowded =>
      have fewer := neighbours_lt all fp known holds.distinct inside new
      omega

def insertAll (index : HashIndex σ) (fps : List Fingerprint) : HashIndex σ :=
  fps.foldl (fun index fp => ((insert fp).perform index).2) index

theorem insert_all_cons {later : HashIndex σ} {fp : Fingerprint} {outcome : Outcome Bool}
    (inserted : (insert fp).perform index = (outcome, later)) (fps : List Fingerprint) :
    insertAll index (fp :: fps) = insertAll later fps := by
  rw [insertAll, List.foldl_cons, inserted]
  rfl

theorem insert_all_grows (fps : List Fingerprint) (holds : Holds index pages contents members) :
    ∃ fresh known after, Holds (insertAll index fps) fresh known after ∧
      index.pool.Grows (insertAll index fps).pool := by
  induction fps generalizing index pages contents members with
  | nil => exact ⟨pages, contents, members, holds, BufferPool.grows_refl _⟩
  | cons fp fps ih =>
      obtain ⟨outcome, later, fresh, known, after, ended, holds', grows, -⟩ := insert_ends holds fp
      obtain ⟨fresh, known, after, holds'', grows'⟩ := ih holds'
      rw [insert_all_cons ended]
      exact ⟨fresh, known, after, holds'', BufferPool.grows_trans grows grows'⟩

theorem stays_spilled (holds : Holds index pages contents members) (spilled : index.hasSpilled = true)
    (fps : List Fingerprint) : (insertAll index fps).hasSpilled = true := by
  obtain ⟨-, -, -, -, grows⟩ := insert_all_grows fps holds
  have risen := grows.evictions
  rw [spilled_iff_counted] at spilled ⊢
  omega

theorem insert_all_append (index : HashIndex σ) (first second : List Fingerprint) :
    insertAll index (first ++ second) = insertAll (insertAll index first) second := List.foldl_append

-- Some insertion among those of the list makes a page leave memory.
def Evicts (index : HashIndex σ) (fps : List Fingerprint) : Prop :=
  ∃ before fp after, fps = before ++ fp :: after ∧
    ∃ id, (insertAll index before).pool.Leaves (insertAll index (before ++ [fp])).pool id

theorem spilled_iff_evicts (fps : List Fingerprint) (holds : Holds index pages contents members)
    (whole : index.pool.Whole) : (insertAll index fps).hasSpilled = true ↔ Evicts index fps := by
  constructor
  · intro spilled
    induction fps using List.reverseRecOn with
    | nil => exact absurd ((whole_unspilled whole).symm.trans spilled) (by decide)
    | append_singleton before fp ih =>
        by_cases earlier : (insertAll index before).hasSpilled = true
        · obtain ⟨start, first, rest, split, leaves⟩ := ih earlier
          exact ⟨start, first, rest ++ [fp], by simp [split], leaves⟩
        · obtain ⟨_, _, _, reached, grows⟩ := insert_all_grows before holds
          obtain ⟨_, _, _, reached', grows'⟩ := insert_all_grows [fp] reached
          rw [← insert_all_append] at reached' grows'
          rw [spilled_iff_counted] at earlier spilled
          have still := BufferPool.grows_whole grows whole (Nat.eq_zero_of_not_pos earlier)
          exact ⟨before, fp, [], rfl,
            BufferPool.evicts_leaves _ _ _ _ reached'.pool grows' still (still.evictions ▸ spilled)⟩
  · rintro ⟨before, fp, after, rfl, id, leaves⟩
    obtain ⟨_, _, _, reached, -⟩ := insert_all_grows before holds
    obtain ⟨_, _, _, reached', grows⟩ := insert_all_grows [fp] reached
    rw [← insert_all_append] at reached' grows
    have rose := BufferPool.leaves_evicts grows leaves
    have spilled : (insertAll index (before ++ [fp])).hasSpilled = true := (spilled_iff_counted _).mpr (by omega)
    have stays := stays_spilled reached' spilled after
    rwa [← insert_all_append, List.append_assoc, List.singleton_append] at stays

end ShardQuery.HashIndex
