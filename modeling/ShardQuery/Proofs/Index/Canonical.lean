import ShardQuery.Proofs.Index.Rounds
import ShardQuery.Proofs.Index.Trie
/-!
What an index looks like after insertions. Main statement: however often and in whatever order some fingerprints are
inserted into an empty index, its buckets are the leaves of the smallest trie that spreads them out.
-/

set_option autoImplicit false

namespace ShardQuery.HashIndex

open PageMedium

variable {σ : Type} [PageMedium σ]
variable {index later : HashIndex σ} {pages fresh : List BucketPage} {contents : Contents} {members : List Fingerprint}
variable {fp : Fingerprint}

theorem leads_somewhere (holds : Holds index pages contents members) (n : Nat) :
    ∃ bucket, bucket? index.directory pages (n % 2 ^ index.depth.toNat) = some bucket ∧
      index.depthAt pages n = bucket.depth.toNat := by
  obtain ⟨bucket, found⟩ := holds.layout.allocated _ (Nat.mod_lt n (Nat.two_pow_pos _))
  exact ⟨bucket, found, by rw [depthAt, found]; rfl⟩

theorem leads_together (holds : Holds index pages contents members) (m n : Nat) :
    pageOf index.directory (m % 2 ^ index.depth.toNat) = pageOf index.directory (n % 2 ^ index.depth.toNat) ↔
      m % 2 ^ index.depthAt pages n = n % 2 ^ index.depthAt pages n := by
  obtain ⟨bucket, found, depth⟩ := leads_somewhere holds n
  have within (k : Nat) : k % 2 ^ index.depth.toNat < 2 ^ index.depth.toNat := Nat.mod_lt _ (Nat.two_pow_pos _)
  have low (k : Nat) : k % 2 ^ index.depth.toNat % 2 ^ bucket.depth.toNat = k % 2 ^ bucket.depth.toNat :=
    Nat.mod_mod_of_dvd k (Nat.pow_dvd_pow 2 (depth ▸ depth_at_le holds n))
  rw [holds.layout.shared _ (within n) bucket found _ (within m), low, low, depth]

theorem depth_at_together (holds : Holds index pages contents members) (m n : Nat)
    (together : m % 2 ^ index.depthAt pages n = n % 2 ^ index.depthAt pages n) :
    index.depthAt pages m = index.depthAt pages n := by
  rw [depthAt, depthAt, bucket?, bucket?, (leads_together holds m n).mpr together]

-- A bucket has the members that agree on the bits it uses, each of them once.
theorem bucket_members (holds : Holds index pages contents members) (n : Nat) (bucket : BucketPage)
    (found : bucket? index.directory pages (n % 2 ^ index.depth.toNat) = some bucket) :
    bucket.entries.Nodup ∧ bucket.entries.toFinset = near members.toFinset bucket.depth.toNat n := by
  have within : n % 2 ^ index.depth.toNat < 2 ^ index.depth.toNat := Nat.mod_lt _ (Nat.two_pow_pos _)
  have depth : index.depthAt pages n = bucket.depth.toNat := by
    rw [depthAt, found]
    rfl
  have low : n % 2 ^ index.depth.toNat % 2 ^ bucket.depth.toNat = n % 2 ^ bucket.depth.toNat :=
    Nat.mod_mod_of_dvd n (Nat.pow_dvd_pow 2 (depth ▸ depth_at_le holds n))
  have inside : bucket.entries.Sublist (entriesOf pages) := by
    simpa [entriesOf] using (List.singleton_sublist.mpr (List.mem_of_getElem? found)).flatMap (·.entries)
  refine ⟨(holds.held.nodup_iff.mpr holds.distinct).sublist inside, ?_⟩
  ext fp
  rw [near, Finset.mem_filter, List.mem_toFinset, List.mem_toFinset]
  constructor
  · intro entry
    have placed := holds.layout.placed _ within bucket found fp entry
    exact ⟨holds.held.mem_iff.mp (inside.subset entry), placed.trans low⟩
  · rintro ⟨member, agrees⟩
    have home : home? index pages fp = some bucket := by
      rw [home?, bucket?, slotOf, (leads_together holds fp.lo.toNat n).mpr (depth ▸ agrees)]
      exact found
    exact (member_iff_home holds fp bucket home).mp member

theorem bucket_near_card (holds : Holds index pages contents members) (n : Nat) (bucket : BucketPage)
    (found : bucket? index.directory pages (n % 2 ^ index.depth.toNat) = some bucket) :
    (near members.toFinset bucket.depth.toNat n).card = bucket.entries.length := by
  obtain ⟨distinct, same⟩ := bucket_members holds n bucket found
  rw [← same, List.toFinset_card_of_nodup distinct]

-- Above every bucket too many of the wanted fingerprints come together, and the directory is as deep as some bucket.
structure Shallowest (index : HashIndex σ) (pages : List BucketPage) (wanted : Finset Fingerprint) : Prop where
  crowded : ∀ n, ∀ higher < index.depthAt pages n, index.bucketCapacity < (near wanted higher n).card
  reached : ∃ n, index.depthAt pages n = index.depth.toNat

theorem flat_shallowest (holds : Holds index pages contents members) (flat : index.depth = 0)
    (wanted : Finset Fingerprint) : Shallowest index pages wanted := by
  have none (n : Nat) : index.depthAt pages n = 0 := by
    have bound := depth_at_le holds n
    rw [flat] at bound
    exact Nat.le_zero.mp bound
  exact ⟨fun n higher above => absurd (none n ▸ above) (Nat.not_lt_zero higher), 0, by rw [none, flat]; rfl⟩

omit [PageMedium σ] in
theorem shallowest_mono {few many : Finset Fingerprint} (inside : few ⊆ many)
    (shallowest : Shallowest index pages few) : Shallowest index pages many where
  crowded n higher above :=
    Nat.lt_of_lt_of_le (shallowest.crowded n higher above) (Finset.card_le_card (near_mono inside higher n))
  reached := shallowest.reached

omit [PageMedium σ] in
theorem unsplit_shallowest {wanted : Finset Fingerprint} (unsplit : Unsplit index pages later fresh)
    (capacity : later.bucketCapacity = index.bucketCapacity) (shallowest : Shallowest index pages wanted) :
    Shallowest later fresh wanted where
  crowded n higher above := capacity ▸ shallowest.crowded n higher (unsplit.depths n ▸ above)
  reached := by
    obtain ⟨n, deepest⟩ := shallowest.reached
    exact ⟨n, by rw [unsplit.depths, deepest, unsplit.depth]⟩

theorem deepened_shallowest {wanted : Finset Fingerprint} (holds : Holds index pages contents members)
    (deepened : Deepened index pages fp later fresh) (capacity : later.bucketCapacity = index.bucketCapacity)
    (exceeded : index.bucketCapacity < (near wanted (index.depthAt pages fp.lo.toNat) fp.lo.toNat).card)
    (shallowest : Shallowest index pages wanted) : Shallowest later fresh wanted where
  crowded := by
    intro n higher above
    rw [deepened.depths] at above
    rw [capacity]
    split at above
    · rename_i together
      rw [near_congr (low_bits_coarser (Nat.le_of_lt_succ above) together)]
      rcases Nat.lt_succ_iff_lt_or_eq.mp above with before | rfl
      · exact shallowest.crowded fp.lo.toNat higher before
      · exact exceeded
    · exact shallowest.crowded n higher above
  reached := by
    by_cases deep : index.depth.toNat ≤ index.depthAt pages fp.lo.toNat + 1
    · exact ⟨fp.lo.toNat, by rw [deepened.depths, if_pos rfl, deepened.depth, Nat.max_eq_right deep]⟩
    · obtain ⟨n, deepest⟩ := shallowest.reached
      refine ⟨n, ?_⟩
      rw [deepened.depths, deepened.depth, Nat.max_eq_left (Nat.le_of_not_le deep), if_neg, deepest]
      intro together
      have same := depth_at_together holds n fp.lo.toNat together
      omega

-- A full bucket that one more fingerprint belongs to has too many of the members and that one.
theorem full_bucket_over (holds : Holds index pages contents members) (new : fp ∉ members) (bucket : BucketPage)
    (home : home? index pages fp = some bucket) (full : index.bucketCapacity ≤ bucket.entries.length) :
    index.bucketCapacity <
      (near (members ++ [fp]).toFinset (index.depthAt pages fp.lo.toNat) fp.lo.toNat).card := by
  rw [depth_at_home home]
  refine Nat.lt_of_le_of_lt (bucket_near_card holds fp.lo.toNat bucket home ▸ full) (Finset.card_lt_card ?_)
  refine Finset.ssubset_iff_subset_ne.mpr ⟨near_mono (by intro other; simp +contextual) _ _, fun same => ?_⟩
  have among : fp ∈ near (members ++ [fp]).toFinset bucket.depth.toNat fp.lo.toNat := by simp [near]
  rw [← same, near, Finset.mem_filter, List.mem_toFinset] at among
  exact new among.1

theorem loops_shallowest {rounds : Nat} {added : Bool} {outcome : Outcome Bool}
    (loops : Loops fp index rounds outcome later) (taken : outcome = .ok added)
    (holds : Holds index pages contents members)
    (shallowest : Shallowest index pages (members ++ [fp]).toFinset) :
    ∃ fresh known after, Holds later fresh known after ∧ index.pool.Grows later.pool ∧
      after.toFinset = (members ++ [fp]).toFinset ∧ Shallowest later fresh after.toFinset := by
  induction loops generalizing pages contents members with
  | @last index later added ended =>
      obtain ⟨_, _, fresh, known, after, ended', holds', grows, ends⟩ := round_ends holds fp
      obtain ⟨rfl, rfl⟩ := Prod.mk.inj (ended.symm.trans ended')
      have capacity := holds_capacity holds holds' grows.toFollows
      cases ends with
      | held member unsplit =>
          have same : members.toFinset = (members ++ [fp]).toFinset := by simp [member]
          exact ⟨pages, known, members, holds', grows, same,
            same ▸ unsplit_shallowest unsplit capacity shallowest⟩
      | joined new unsplit =>
          exact ⟨fresh, known, members ++ [fp], holds', grows, rfl, unsplit_shallowest unsplit capacity shallowest⟩
  | failed ended => cases taken
  | @again index next later rounds outcome split rest ih =>
      obtain ⟨_, _, fresh, known, after, ended', holds', grows, ends⟩ := round_ends holds fp
      obtain ⟨rfl, rfl⟩ := Prod.mk.inj (split.symm.trans ended')
      cases ends with
      | split new bucket home full deepened =>
          have exceeded := full_bucket_over holds new bucket home full
          obtain ⟨fresh, known, after, result, grown, same, low⟩ := ih taken holds'
            (deepened_shallowest holds deepened (holds_capacity holds holds' grows.toFollows) exceeded shallowest)
          exact ⟨fresh, known, after, result, BufferPool.grows_trans grows grown, same, low⟩

-- None of the insertions fails.
def AllTaken (index : HashIndex σ) : List Fingerprint → Prop
  | [] => True
  | fp :: fps => (∃ added, ((insert fp).perform index).1 = .ok added) ∧ AllTaken ((insert fp).perform index).2 fps

theorem insert_shallowest {added : Bool} (holds : Holds index pages contents members)
    (shallowest : Shallowest index pages members.toFinset) (taken : ((insert fp).perform index).1 = .ok added) :
    ∃ fresh known after, Holds ((insert fp).perform index).2 fresh known after ∧
      index.pool.Grows ((insert fp).perform index).2.pool ∧ after.toFinset = (members ++ [fp]).toFinset ∧
      Shallowest ((insert fp).perform index).2 fresh after.toFinset := by
  obtain ⟨rounds, outcome, later, fresh, known, after, loops, few, -⟩ :=
    loops_end maxDepth.toNat holds fp (Nat.le_add_right _ _)
  rw [show (insert fp).perform index = (outcome, later) from perform_loops loops (Nat.le_succ_of_le few)] at taken ⊢
  exact loops_shallowest loops taken holds (shallowest_mono (by intro other; simp +contextual) shallowest)

theorem insert_all_shallowest (fps : List Fingerprint) (holds : Holds index pages contents members)
    (shallowest : Shallowest index pages members.toFinset) (taken : AllTaken index fps) :
    ∃ fresh known after, Holds (insertAll index fps) fresh known after ∧
      index.pool.Grows (insertAll index fps).pool ∧ after.toFinset = (members ++ fps).toFinset ∧
      Shallowest (insertAll index fps) fresh after.toFinset := by
  induction fps generalizing index pages contents members with
  | nil => exact ⟨pages, contents, members, holds, BufferPool.grows_refl _, by simp, shallowest⟩
  | cons fp fps ih =>
      obtain ⟨⟨added, first⟩, rest⟩ := taken
      obtain ⟨fresh, known, after, holds', grows, same, low⟩ := insert_shallowest holds shallowest first
      obtain ⟨fresh, known, last, holds'', grown, same', low'⟩ := ih holds' low rest
      refine ⟨fresh, known, last, holds'', BufferPool.grows_trans grows grown, ?_, low'⟩
      rw [same', List.toFinset_append, same, ← List.toFinset_append, List.append_assoc, List.singleton_append]

-- The buckets are the leaves of the trie.
structure Partitions (index : HashIndex σ) (members : Finset Fingerprint) (trie : Trie) : Prop where
  size : index.size = members.card
  depth : index.depth.toNat = trie.height
  pages : index.pageCount = trie.leaves
  shared : ∀ m n, index.pageAt (m % 2 ^ index.depth.toNat) = index.pageAt (n % 2 ^ index.depth.toNat) ↔
    m % 2 ^ trie.leafDepth 0 n = n % 2 ^ trie.leafDepth 0 n
  buckets : ∀ n, ∃ page later,
    (BufferPool.fetch (index.pageAt (n % 2 ^ index.depth.toNat))).perform index.pool = (.ok page, later) ∧
    page.depth.toNat = trie.leafDepth 0 n ∧ page.entries.Nodup ∧
    page.entries.toFinset = near members (trie.leafDepth 0 n) n

theorem bucket_fits (holds : Holds index pages contents members) (n : Nat) (bucket : BucketPage)
    (found : bucket? index.directory pages (n % 2 ^ index.depth.toNat) = some bucket) :
    (near members.toFinset bucket.depth.toNat n).card ≤ index.bucketCapacity := by
  rw [bucket_near_card holds n bucket found, holds.capacity]
  exact holds.pool.fitting bucket (List.mem_of_getElem? found)

theorem shallowest_first_fits (holds : Holds index pages contents members)
    (shallowest : Shallowest index pages members.toFinset) (n : Nat) :
    Trie.FirstFits index.bucketCapacity members.toFinset n (index.depthAt pages n) := by
  obtain ⟨bucket, found, depth⟩ := leads_somewhere holds n
  exact ⟨depth ▸ bucket_fits holds n bucket found, shallowest.crowded n⟩

theorem deep_enough (holds : Holds index pages contents members) (n : Nat) :
    (near members.toFinset maxDepth.toNat n).card ≤ index.bucketCapacity := by
  obtain ⟨bucket, found, depth⟩ := leads_somewhere holds n
  have bound := Nat.le_trans (depth ▸ depth_at_le holds n) holds.shallow
  exact Nat.le_trans (Finset.card_le_card (near_coarser bound n)) (bucket_fits holds n bucket found)

theorem layout_pages_named (holds : Holds index pages contents members) :
    ((Trie.region index.depth.toNat 0 0).image (pageOf index.directory)).card = pages.length := by
  have whole : ((Trie.region index.depth.toNat 0 0).image (pageOf index.directory)).image UInt32.toNat =
      Finset.range pages.length := by
    ext page
    simp only [Trie.region, Finset.mem_image, Finset.mem_filter, Finset.mem_range]
    constructor
    · rintro ⟨_, ⟨slot, ⟨bound, -⟩, rfl⟩, rfl⟩
      obtain ⟨bucket, found⟩ := holds.layout.allocated slot bound
      exact (List.getElem?_eq_some_iff.mp found).1
    · intro bound
      obtain ⟨slot, within, number⟩ := holds.layout.used page bound
      exact ⟨_, ⟨slot, ⟨within, by simp [Nat.mod_one]⟩, rfl⟩, number⟩
  rw [← Finset.card_range pages.length, ← whole, Finset.card_image_of_injective _ fun _ _ => UInt32.toNat_inj.mp]

theorem shallowest_partitions (holds : Holds index pages contents members)
    (shallowest : Shallowest index pages members.toFinset) :
    ∃ trie : Trie, trie.Smallest index.bucketCapacity members.toFinset ∧ Partitions index members.toFinset trie := by
  let trie := Trie.ofMembers index.bucketCapacity members.toFinset maxDepth.toNat 0 0
  have leaf (n : Nat) : trie.leafDepth 0 n = index.depthAt pages n :=
    Trie.first_fits_unique
      (Trie.leaf_depth_of_members maxDepth.toNat 0 0 n (Nat.mod_one n) (by simpa using deep_enough holds)
        fun higher above => absurd above (Nat.not_lt_zero higher))
      (shallowest_first_fits holds shallowest n)
  have depth : index.depth.toNat = trie.height := by
    obtain ⟨n, deepest⟩ := shallowest.reached
    obtain ⟨m, -, highest⟩ := trie.height_reached 0 0 Nat.one_pos
    have above := trie.leaf_depth_le 0 n
    have below := depth_at_le holds m
    rw [leaf] at above highest
    omega
  refine ⟨trie, Trie.of_members_smallest _ (deep_enough holds), ?_, depth, ?_, ?_, ?_⟩
  · rw [holds.counted, List.toFinset_card_of_nodup holds.distinct]
  · rw [pageCount, holds.pool.counted, ← layout_pages_named holds]
    refine Trie.leaves_named _ trie index.depth.toNat 0 0 Nat.one_pos (by omega) fun m member n member' => ?_
    have within (k : Nat) (inside : k ∈ Trie.region index.depth.toNat 0 0) : k % 2 ^ index.depth.toNat = k :=
      Nat.mod_eq_of_lt (Finset.mem_range.mp (Finset.mem_filter.mp inside).1)
    rw [leaf, ← leads_together holds, within m member, within n member']
  · intro m n
    rw [leaf, ← leads_together holds]
    rfl
  · intro n
    obtain ⟨bucket, found, same⟩ := leads_somewhere holds n
    obtain ⟨later, known, fetched, -⟩ := BufferPool.fetch_keeps index.pool pages contents _ bucket holds.pool found
    obtain ⟨distinct, entries⟩ := bucket_members holds n bucket found
    rw [leaf, same]
    exact ⟨bucket, later, fetched, rfl, distinct, entries⟩

-- An index that has just been made, or cleared after whatever use.
def Blank (pageSize : Nat) (index : HashIndex σ) : Prop :=
  ∃ (store : σ) (poolPages : Nat) (made : HashIndex σ), ReadsBack pageSize store noContents ∧
    make store poolPages pageSize = .ok made ∧
    (index = made ∨ ∃ calls, clear.perform (Watched.run made calls).index = (.ok (), index))

theorem made_flat {store : σ} {poolPages pageSize : Nat} (made : make store poolPages pageSize = .ok index) :
    index.depth = 0 := by
  unfold make at made
  split at made
  · cases made
  · split at made
    · cases made
    · -- The pool is new, so its first page is there at once.
      cases made
      rfl

theorem cleared_flat (cleared : clear.perform index = (.ok (), later)) : later.depth = 0 := by
  rw [clear, Step.perform_bind_ok (Step.perform_modify _ index), Step.perform_bind] at cleared
  split at cleared
  · cases cleared
    rfl
  · cases cleared

theorem blank_holds {pageSize : Nat} (blank : Blank pageSize index) :
    ∃ pages contents, Holds index pages contents [] ∧ index.pool.pageSize = pageSize ∧ index.depth = 0 := by
  obtain ⟨store, poolPages, made, faithful, done, rfl | ⟨calls, cleared⟩⟩ := blank
  · obtain ⟨pages, contents, holds, sized⟩ := made_holds faithful done
    exact ⟨pages, contents, holds, sized, made_flat done⟩
  · obtain ⟨pages, contents, holds, sized, -⟩ := used_holds faithful done calls
    obtain ⟨later, fresh, known, cleared', holds', follows⟩ := clear_holds holds
    obtain rfl : later = index := congrArg Prod.snd (cleared'.symm.trans cleared)
    exact ⟨fresh, known, holds', follows.pageSize.trans sized, cleared_flat cleared⟩

-- With room for all fingerprints that share their low bits, no insertion of them fails.
theorem uncrowded_all_taken (all fps : List Fingerprint) (holds : Holds index pages contents members)
    (inside : members ⊆ all) (known : fps ⊆ all)
    (room : ∀ fp ∈ all, (neighbours all fp).length ≤ index.bucketCapacity) : AllTaken index fps := by
  induction fps generalizing index pages contents members with
  | nil => trivial
  | cons fp fps ih =>
      obtain ⟨among, rest⟩ := List.cons_subset.mp known
      obtain ⟨later, fresh, learned, done, holds', grows⟩ :=
        insert_uncrowded holds all fp among inside (room fp among)
      rw [AllTaken, done]
      refine ⟨⟨_, rfl⟩, ih holds' ?_ rest (holds_capacity holds holds' grows.toFollows ▸ room)⟩
      split
      · exact inside
      · exact List.append_subset.mpr ⟨inside, by simpa using among⟩

theorem blank_all_taken {pageSize : Nat} (blank : Blank pageSize index) (all fps : List Fingerprint) (known : fps ⊆ all)
    (room : ∀ fp ∈ all, (neighbours all fp).length ≤ BucketPage.capacity pageSize) : AllTaken index fps := by
  obtain ⟨pages, contents, holds, sized, -⟩ := blank_holds blank
  refine uncrowded_all_taken all fps holds (List.nil_subset all) known ?_
  rwa [holds.capacity, sized]

theorem inserted_partitions {pageSize : Nat} (blank : Blank pageSize index) (fps : List Fingerprint)
    (taken : AllTaken index fps) :
    ∃ trie : Trie, trie.Smallest (BucketPage.capacity pageSize) fps.toFinset ∧
      Partitions (insertAll index fps) fps.toFinset trie := by
  obtain ⟨pages, contents, holds, sized, flat⟩ := blank_holds blank
  obtain ⟨fresh, known, after, holds', grows, same, shallowest⟩ :=
    insert_all_shallowest fps holds (flat_shallowest holds flat _) taken
  rw [List.nil_append] at same
  obtain ⟨trie, smallest, partitions⟩ := shallowest_partitions holds' shallowest
  rw [holds'.capacity, grows.pageSize, sized] at smallest
  exact ⟨trie, same ▸ smallest, same ▸ partitions⟩

-- The two indexes may keep their pages on different media and have different numbers of them in memory.
theorem inserted_alike {τ : Type} [PageMedium τ] {pageSize : Nat} {other : HashIndex τ} (blank : Blank pageSize index)
    (blank' : Blank pageSize other) (fps gps : List Fingerprint) (taken : AllTaken index fps)
    (taken' : AllTaken other gps) (same : fps.toFinset = gps.toFinset) :
    let left := insertAll index fps
    let right := insertAll other gps
    left.size = right.size ∧ left.depth = right.depth ∧ left.pageCount = right.pageCount ∧
    ∃ trie : Trie, trie.Smallest (BucketPage.capacity pageSize) fps.toFinset ∧
      Partitions left fps.toFinset trie ∧ Partitions right fps.toFinset trie := by
  intro left right
  obtain ⟨trie, smallest, first⟩ := inserted_partitions blank fps taken
  obtain ⟨trie', smallest', second⟩ := inserted_partitions blank' gps taken'
  rw [← same] at smallest' second
  obtain rfl := Trie.smallest_unique smallest smallest'
  refine ⟨first.size.trans second.size.symm, ?_, first.pages.trans second.pages.symm, trie, smallest, first, second⟩
  exact UInt16.toNat_inj.mp (first.depth.trans second.depth.symm)

-- A new index and a cleared one, with one entry to a bucket. The last two fingerprints differ in the second bit.
theorem three_inserted_alike :
    ∃ index other : HashIndex PageStore, Blank 24 index ∧ Blank 24 other ∧
      AllTaken index [⟨0, 2⟩, ⟨0, 1⟩, ⟨0, 3⟩] ∧ AllTaken other [⟨0, 3⟩, ⟨0, 1⟩, ⟨0, 3⟩, ⟨0, 2⟩] ∧
      (insertAll index [⟨0, 2⟩, ⟨0, 1⟩, ⟨0, 3⟩]).pageCount =
        (insertAll other [⟨0, 3⟩, ⟨0, 1⟩, ⟨0, 3⟩, ⟨0, 2⟩]).pageCount ∧
      ∃ trie : Trie, trie.Smallest 1 {⟨0, 2⟩, ⟨0, 1⟩, ⟨0, 3⟩} ∧
        Partitions (insertAll index [⟨0, 2⟩, ⟨0, 1⟩, ⟨0, 3⟩]) {⟨0, 2⟩, ⟨0, 1⟩, ⟨0, 3⟩} trie := by
  have faithful := PageStore.in_memory_reads_back 24
  obtain ⟨index, -, -, made, -⟩ := make_holds PageStore.inMemory 2 24 (by decide) (by decide) faithful
  obtain ⟨first, -, -, made', -⟩ := make_holds PageStore.inMemory 3 24 (by decide) (by decide) faithful
  obtain ⟨_, _, used, -⟩ := used_holds faithful made' [.insert ⟨7, 7⟩]
  obtain ⟨other, -, -, cleared, -⟩ := clear_holds used
  have blank : Blank 24 index := ⟨_, 2, index, faithful, made, .inl rfl⟩
  have blank' : Blank 24 other := ⟨_, 3, first, faithful, made', .inr ⟨_, cleared⟩⟩
  have room : ∀ fp ∈ [⟨0, 2⟩, ⟨0, 1⟩, ⟨0, 3⟩], (neighbours [⟨0, 2⟩, ⟨0, 1⟩, ⟨0, 3⟩] fp).length ≤ 1 := by decide
  have taken := blank_all_taken blank _ [⟨0, 2⟩, ⟨0, 1⟩, ⟨0, 3⟩] (List.Subset.refl _) room
  have taken' := blank_all_taken blank' _ [⟨0, 3⟩, ⟨0, 1⟩, ⟨0, 3⟩, ⟨0, 2⟩] (by decide) room
  obtain ⟨-, -, pages, trie, smallest, partitions, -⟩ := inserted_alike blank blank' _ _ taken taken' (by decide)
  exact ⟨index, other, blank, blank', taken, taken', pages, trie, smallest, partitions⟩

end ShardQuery.HashIndex
