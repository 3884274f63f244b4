import Mathlib.Data.Finset.Card
import Mathlib.Data.Finset.Range
import ShardQuery.Index.BufferPool
import ShardQuery.Proofs.Index.Medium
import ShardQuery.Proofs.Index.PageImage
/-!
What a buffer pool keeps. Main statements: over a medium that reads back what was written, every operation
succeeds, a fetched page is the page as it was last changed, no eviction shows, and the counter of evictions rises
exactly when a page has to leave memory.
-/

set_option autoImplicit false

namespace ShardQuery.BufferPool

open PageMedium

variable {σ : Type}

-- What no operation on pages changes, and what only grows.
structure Follows (before after : BufferPool σ) : Prop where
  pageSize : after.pageSize = before.pageSize
  capacity : after.capacity = before.capacity
  evictions : before.stats.evictions ≤ after.stats.evictions

theorem follows_refl (pool : BufferPool σ) : Follows pool pool := ⟨rfl, rfl, Nat.le_refl _⟩

theorem follows_trans {a b c : BufferPool σ} (first : Follows a b) (second : Follows b c) : Follows a c :=
  ⟨second.pageSize.trans first.pageSize, second.capacity.trans first.capacity,
    Nat.le_trans first.evictions second.evictions⟩

-- Pages have left memory and none has come.
structure Shrinks (before after : BufferPool σ) : Prop extends Follows before after where
  absent : ∀ id, before.frames.get? id = none → after.frames.get? id = none

theorem shrinks_trans {a b c : BufferPool σ} (first : Shrinks a b) (second : Shrinks b c) : Shrinks a c :=
  ⟨follows_trans first.toFollows second.toFollows, fun id missing => second.absent id (first.absent id missing)⟩

-- The page was in memory or is new, and it is not in memory afterwards.
def Leaves (before after : BufferPool σ) (id : PageId) : Prop :=
  id < after.next ∧ (before.next ≤ id ∨ before.frames.get? id ≠ none) ∧ after.frames.get? id = none

-- What an operation that forgets no page does: unless the counter of evictions rises no page leaves memory, and when
-- it rises there are too many pages for the memory.
structure Grows (before after : BufferPool σ) : Prop extends Follows before after where
  next : before.next ≤ after.next
  rests : after.stats.evictions = before.stats.evictions → ∀ id, ¬Leaves before after id
  crowds : before.stats.evictions < after.stats.evictions → after.capacity < after.next.toNat

theorem grows_refl (pool : BufferPool σ) : Grows pool pool where
  toFollows := follows_refl pool
  next := UInt32.le_refl _
  rests := by
    rintro - id ⟨below, old | held, missing⟩
    · exact absurd below (Nat.not_lt.mpr old)
    · exact held missing
  crowds rose := absurd rose (Nat.lt_irrefl _)

theorem grows_trans {a b c : BufferPool σ} (first : Grows a b) (second : Grows b c) : Grows a c where
  toFollows := follows_trans first.toFollows second.toFollows
  next := UInt32.le_trans first.next second.next
  rests := by
    rintro same id ⟨below, before, missing⟩
    have risen := first.evictions
    have risen' := second.evictions
    by_cases here : b.frames.get? id = none
    · by_cases old : b.next ≤ id
      · exact second.rests (by omega) id ⟨below, .inl old, missing⟩
      · exact first.rests (by omega) id ⟨Nat.lt_of_not_le old, before, here⟩
    · exact second.rests (by omega) id ⟨below, .inr here, missing⟩
  crowds := by
    intro rose
    by_cases late : b.stats.evictions < c.stats.evictions
    · exact second.crowds late
    · rw [second.capacity]
      exact Nat.lt_of_lt_of_le (first.crowds (by omega)) second.next

-- Every page is in memory, and none has ever been out of it.
structure Whole (pool : BufferPool σ) : Prop where
  evictions : pool.stats.evictions = 0
  resident : ∀ id, id < pool.next → pool.frames.get? id ≠ none

theorem grows_whole {before after : BufferPool σ} (grows : Grows before after) (whole : Whole before)
    (unmoved : after.stats.evictions = 0) : Whole after where
  evictions := unmoved
  resident := by
    intro id below missing
    refine grows.rests (unmoved.trans whole.evictions.symm) id ⟨below, ?_, missing⟩
    by_cases old : before.next ≤ id
    · exact .inl old
    · exact .inr (whole.resident id (Nat.lt_of_not_le old))

theorem leaves_evicts {before after : BufferPool σ} {id : PageId} (grows : Grows before after)
    (leaves : Leaves before after id) : before.stats.evictions < after.stats.evictions :=
  Nat.lt_of_le_of_ne grows.evictions fun same => grows.rests same.symm id leaves

-- No page is evicted and none that was in memory is missing.
theorem kept_grows {before after : BufferPool σ} (follows : Follows before after) (next : after.next = before.next)
    (same : after.stats.evictions = before.stats.evictions)
    (kept : ∀ id, after.frames.get? id = none → before.frames.get? id = none) : Grows before after where
  toFollows := follows
  next := UInt32.le_of_eq next.symm
  rests := by
    rintro - id ⟨below, old | held, missing⟩
    · exact absurd below (Nat.not_lt.mpr (next ▸ old))
    · exact held (kept id missing)
  crowds rose := absurd rose (by omega)

theorem inserted_keeps_others (frames : SortedMap PageId Frame) (id : PageId) (frame : Frame) (other : PageId)
    (missing : (frames.insert id frame).get? other = none) : other ≠ id ∧ frames.get? other = none := by
  rw [SortedMap.get?_insert] at missing
  split at missing
  · cases missing
  · rename_i different
    exact ⟨different, missing⟩

-- Room has been made: pages have left a full memory, or nothing has happened.
structure RoomMade (before after : BufferPool σ) : Prop extends Shrinks before after where
  next : after.next = before.next
  rests : after.stats.evictions = before.stats.evictions → after.frames = before.frames
  full : before.stats.evictions < after.stats.evictions → before.capacity ≤ before.resident

theorem room_made_refl (pool : BufferPool σ) : RoomMade pool pool where
  toFollows := follows_refl pool
  absent _ missing := missing
  next := rfl
  rests _ := rfl
  full rose := absurd rose (Nat.lt_irrefl _)

-- A page has been placed where room was made for it.
theorem room_made_grows {before roomy after : BufferPool σ} {id : PageId} {frame : Frame} (made : RoomMade before roomy)
    (frames : after.frames = roomy.frames.insert id frame) (pageSize : after.pageSize = roomy.pageSize)
    (capacity : after.capacity = roomy.capacity) (evictions : after.stats.evictions = roomy.stats.evictions)
    (next : before.next ≤ after.next) (fresh : ∀ other, before.next ≤ other → other < after.next → other = id)
    (outside : before.resident < after.next.toNat) : Grows before after where
  pageSize := pageSize.trans made.pageSize
  capacity := capacity.trans made.capacity
  evictions := evictions ▸ made.evictions
  next := next
  rests := by
    rintro same other ⟨below, held, missing⟩
    rw [frames, made.rests (evictions ▸ same)] at missing
    obtain ⟨different, gone⟩ := inserted_keeps_others _ _ _ _ missing
    rcases held with new | held
    · exact different (fresh other new below)
    · exact held gone
  crowds := by
    intro rose
    rw [capacity, made.capacity]
    exact Nat.lt_of_le_of_lt (made.full (evictions ▸ rose)) outside

theorem older_among (frames : List (PageId × Frame)) (first : PageId × Frame) :
    frames.foldl older first ∈ first :: frames := by
  induction frames generalizing first with
  | nil => exact List.mem_singleton.mpr rfl
  | cons frame frames ih =>
      rcases List.mem_cons.mp (ih (older first frame)) with chosen | later
      · rw [List.foldl_cons, chosen, older]
        split <;> simp
      · exact List.mem_cons_of_mem _ (List.mem_cons_of_mem _ later)

theorem victim_resident (pool : BufferPool σ) (id : PageId) (frame : Frame)
    (chosen : pool.victim? = some (id, frame)) : pool.frames.get? id = some frame := by
  rw [SortedMap.get?_eq_some]
  unfold victim? at chosen
  split at chosen
  · cases chosen
  · rename_i first rest entries
    rw [entries, ← Option.some.inj chosen]
    exact older_among rest first

theorem victim_exists (pool : BufferPool σ) (full : 0 < pool.resident) :
    ∃ id frame, pool.victim? = some (id, frame) := by
  unfold victim?
  split
  · rename_i none
    simp [resident, SortedMap.size, none] at full
  · exact ⟨_, _, rfl⟩

def dropped (pool : BufferPool σ) (id : PageId) : BufferPool σ :=
  { pool with
    frames := pool.frames.erase id,
    stats := { pool.stats with evictions := pool.stats.evictions + 1 } }

theorem dropped_held {pool : BufferPool σ} {id other : PageId} {frame : Frame} :
    (pool.dropped id).frames.get? other = some frame ↔ other ≠ id ∧ pool.frames.get? other = some frame := by
  rw [dropped, SortedMap.get?_erase]
  split
  · rename_i same
    simp [same]
  · rename_i different
    simp [different]

theorem dropped_shrinks (pool : BufferPool σ) (id : PageId) : Shrinks pool (pool.dropped id) where
  pageSize := rfl
  capacity := rfl
  evictions := Nat.le_succ _
  absent := by
    intro other missing
    rw [dropped, SortedMap.get?_erase, missing, ite_self]

theorem dropped_resident (pool : BufferPool σ) (id : PageId) (frame : Frame)
    (held : pool.frames.get? id = some frame) : (pool.dropped id).resident < pool.resident :=
  SortedMap.size_erase_lt pool.frames id frame held

variable [PageMedium σ]

-- The list has the page of number `i` at place `i`. A page that is not in memory must be in the store as it
-- is, and so must one in memory that has not changed since it was loaded, because it may leave unwritten.
structure Keeps (pool : BufferPool σ) (pages : List BucketPage) (contents : Contents) : Prop where
  headed : BucketPage.headerSize ≤ pool.pageSize
  storable : pool.pageSize ≤ Bytes.largest
  roomy : 2 ≤ pool.capacity
  bounded : pool.resident ≤ pool.capacity
  counted : pool.next.toNat = pages.length
  numbered : ∀ (i : Nat) page, pages[i]? = some page → page.id.toNat = i
  fitting : ∀ page ∈ pages, page.entries.length ≤ BucketPage.capacity pool.pageSize
  faithful : ReadsBack pool.pageSize pool.store contents
  current : ∀ id frame, pool.frames.get? id = some frame → pages[id.toNat]? = some frame.page
  clean : ∀ id frame, pool.frames.get? id = some frame → frame.dirty = false →
    contents id = some (frame.page.image pool.pageSize)
  absent : ∀ id page, pages[id.toNat]? = some page → pool.frames.get? id = none →
    contents id = some (page.image pool.pageSize)

theorem make_keeps (store : σ) (capacity pageSize : Nat) (contents : Contents)
    (headed : BucketPage.headerSize ≤ pageSize) (storable : pageSize ≤ Bytes.largest)
    (faithful : ReadsBack pageSize store contents) : Keeps (make store capacity pageSize) [] contents where
  headed := headed
  storable := storable
  roomy := Nat.le_max_right _ _
  bounded := Nat.zero_le _
  counted := rfl
  numbered := by simp
  fitting := by simp
  faithful := faithful
  current := by simp [make, SortedMap.get?_empty]
  clean := by simp [make, SortedMap.get?_empty]
  absent := by simp

-- The contents survive a clear, but no page refers to them any more.
theorem clear_keeps (pool : BufferPool σ) (pages : List BucketPage) (contents : Contents)
    (keeps : Keeps pool pages contents) : Keeps pool.clear [] contents where
  headed := keeps.headed
  storable := keeps.storable
  roomy := keeps.roomy
  bounded := Nat.zero_le _
  counted := rfl
  numbered := by simp
  fitting := by simp
  faithful := keeps.faithful
  current := by simp [clear, SortedMap.get?_empty]
  clean := by simp [clear, SortedMap.get?_empty]
  absent := by simp

theorem restamped_keeps {pool : BufferPool σ} {pages : List BucketPage} {contents : Contents}
    (keeps : Keeps pool pages contents) (clock : Nat) (stats : PoolStats) :
    Keeps { pool with clock, stats } pages contents :=
  { keeps with }

theorem next_exceeds (pool : BufferPool σ) (pages : List BucketPage) (contents : Contents)
    (keeps : Keeps pool pages contents) (id : PageId) (held : pool.frames.get? id ≠ none) : id < pool.next := by
  obtain ⟨frame, held⟩ := Option.ne_none_iff_exists'.mp held
  have allocated := (List.getElem?_eq_some_iff.mp (keeps.current id frame held)).1
  exact Nat.lt_of_lt_of_eq allocated keeps.counted.symm

def residents (pool : BufferPool σ) : Finset Nat := (pool.frames.keys.map UInt32.toNat).toFinset

omit [PageMedium σ] in
theorem mem_residents (pool : BufferPool σ) (id : PageId) : id.toNat ∈ pool.residents ↔ pool.frames.get? id ≠ none := by
  rw [residents, List.mem_toFinset, List.mem_map_of_injective fun _ _ => UInt32.toNat_inj.mp, ← SortedMap.get?_isSome,
    Option.isSome_iff_ne_none]

omit [PageMedium σ] in
theorem residents_card (pool : BufferPool σ) : pool.residents.card = pool.resident := by
  rw [residents, List.toFinset_card_of_nodup (pool.frames.keys_nodup.map fun _ _ => UInt32.toNat_inj.mp),
    List.length_map, SortedMap.keys, List.length_map, resident, SortedMap.size]

theorem residents_below (pool : BufferPool σ) (pages : List BucketPage) (contents : Contents)
    (keeps : Keeps pool pages contents) : pool.residents ⊆ Finset.range pool.next.toNat := by
  intro number member
  obtain ⟨id, -, rfl⟩ := List.mem_map.mp (List.mem_toFinset.mp member)
  exact Finset.mem_range.mpr (next_exceeds pool pages contents keeps id ((mem_residents pool id).mp member))

theorem resident_le_next (pool : BufferPool σ) (pages : List BucketPage) (contents : Contents)
    (keeps : Keeps pool pages contents) : pool.resident ≤ pool.next.toNat := by
  have within := Finset.card_le_card (residents_below pool pages contents keeps)
  rwa [residents_card, Finset.card_range] at within

theorem resident_lt_next (pool : BufferPool σ) (pages : List BucketPage) (contents : Contents)
    (keeps : Keeps pool pages contents) (id : PageId) (below : id < pool.next) (missing : pool.frames.get? id = none) :
    pool.resident < pool.next.toNat := by
  have within := residents_below pool pages contents keeps
  have absent : id.toNat ∉ pool.residents := fun member => (mem_residents pool id).mp member missing
  have fewer := Finset.card_lt_card (Finset.ssubset_iff_subset_ne.mpr ⟨within, fun same =>
    absent (same ▸ Finset.mem_range.mpr below)⟩)
  rwa [residents_card, Finset.card_range] at fewer

-- With more pages than fit in memory, one of them is not in memory.
theorem crowded_missing (pool : BufferPool σ) (pages : List BucketPage) (contents : Contents)
    (keeps : Keeps pool pages contents) (crowded : pool.capacity < pool.next.toNat) :
    ∃ id, id < pool.next ∧ pool.frames.get? id = none := by
  have fewer : pool.residents.card < (Finset.range pool.next.toNat).card := by
    rw [residents_card, Finset.card_range]
    exact Nat.lt_of_le_of_lt keeps.bounded crowded
  obtain ⟨number, below, absent⟩ := Finset.exists_mem_notMem_of_card_lt_card fewer
  rw [Finset.mem_range] at below
  obtain ⟨id, rfl⟩ : ∃ id : PageId, id.toNat = number :=
    ⟨.ofNat number, UInt32.toNat_ofNat_of_lt' (Nat.lt_trans below pool.next.toNat_lt)⟩
  exact ⟨id, below, Decidable.not_not.mp fun held => absent ((mem_residents pool id).mpr held)⟩

-- The first eviction leaves a page out of memory, also when what follows loads the evicted one again.
theorem evicts_leaves (before after : BufferPool σ) (pages : List BucketPage) (contents : Contents)
    (keeps : Keeps after pages contents) (grows : Grows before after) (whole : Whole before)
    (rose : before.stats.evictions < after.stats.evictions) : ∃ id, Leaves before after id := by
  obtain ⟨id, below, missing⟩ := crowded_missing after pages contents keeps (grows.crowds rose)
  refine ⟨id, below, ?_, missing⟩
  by_cases old : before.next ≤ id
  · exact .inl old
  · exact .inr (whole.resident id (Nat.lt_of_not_le old))

theorem perform_evict_clean (pool : BufferPool σ) (id : PageId) (frame : Frame)
    (victim : pool.victim? = some (id, frame)) (clean : frame.dirty = false) :
    evictOne.perform pool = (.ok (), pool.dropped id) := by
  simp only [evictOne, Step.perform_bind, Step.perform_get, victim, Step.perform_set, clean,
    Bool.false_eq_true, if_false, Step.perform_pure]
  rfl

theorem perform_evict_dirty (pool : BufferPool σ) (id : PageId) (frame : Frame) (bytes : Bytes) (store : σ)
    (victim : pool.victim? = some (id, frame)) (dirty : frame.dirty = true)
    (encoded : frame.page.encode pool.pageSize = .ok bytes)
    (written : (PageMedium.write id bytes).perform pool.store = (.ok (), store)) :
    evictOne.perform pool = (.ok (), { pool.dropped id with
      store, stats := { (pool.dropped id).stats with writeBacks := pool.stats.writeBacks + 1 } }) := by
  simp only [evictOne, Step.perform_bind, Step.perform_get, victim, Step.perform_set, dirty, if_true, encoded,
    Step.perform_ofOutcome, onStore, Step.perform_onPart, written, Step.perform_modify]
  rfl

theorem dropped_keeps (pool : BufferPool σ) (pages : List BucketPage) (contents known : Contents) (id : PageId)
    (frame : Frame) (store : σ) (keeps : Keeps pool pages contents) (held : pool.frames.get? id = some frame)
    (faithful : ReadsBack pool.pageSize store known) (saved : known id = some (frame.page.image pool.pageSize))
    (others : ∀ other, other ≠ id → known other = contents other) :
    Keeps { pool.dropped id with store } pages known := by
  refine ⟨keeps.headed, keeps.storable, keeps.roomy, ?_, keeps.counted, keeps.numbered, keeps.fitting, faithful,
    ?_, ?_, ?_⟩
  · exact Nat.le_trans (Nat.le_of_lt (dropped_resident pool id frame held)) keeps.bounded
  · intro other kept found
    exact keeps.current other kept (dropped_held.mp found).2
  · intro other kept found unchanged
    obtain ⟨different, found⟩ := dropped_held.mp found
    rw [others other different]
    exact keeps.clean other kept found unchanged
  · intro other page allocated missing
    by_cases same : other = id
    · subst other
      rw [saved, Option.some.inj (allocated.symm.trans (keeps.current id frame held))]
      rfl
    · rw [others other same]
      refine keeps.absent other page allocated ?_
      simpa [dropped, SortedMap.get?_erase, same] using missing

theorem evict_keeps (pool : BufferPool σ) (pages : List BucketPage) (contents : Contents)
    (keeps : Keeps pool pages contents) (full : 0 < pool.resident) :
    ∃ later known, evictOne.perform pool = (.ok (), later) ∧ Keeps later pages known ∧ Shrinks pool later ∧
      later.next = pool.next ∧ later.stats.evictions = pool.stats.evictions + 1 ∧ later.resident < pool.resident := by
  obtain ⟨id, frame, victim⟩ := victim_exists pool full
  have held := victim_resident pool id frame victim
  have smaller := dropped_resident pool id frame held
  cases dirty : frame.dirty with
  | false =>
      exact ⟨pool.dropped id, contents, perform_evict_clean pool id frame victim dirty,
        dropped_keeps pool pages contents contents id frame pool.store keeps held keeps.faithful
          (keeps.clean id frame held dirty) (fun _ _ => rfl),
        dropped_shrinks pool id, rfl, rfl, smaller⟩
  | true =>
      have fits := keeps.fitting frame.page (List.mem_of_getElem? (keeps.current id frame held))
      obtain ⟨store, written, faithful⟩ := write_page pool.pageSize pool.store contents id _ keeps.faithful
        (BucketPage.image_length frame.page pool.pageSize)
      have evicted := perform_evict_dirty pool id frame _ store victim dirty
        (BucketPage.encode_fitting frame.page pool.pageSize keeps.storable fits) written
      have kept := dropped_keeps pool pages contents _ id frame store keeps held faithful (by simp [Contents.put])
        fun other different => by simp [Contents.put, different]
      have shrinks := dropped_shrinks pool id
      exact ⟨_, _, evicted, restamped_keeps kept _ _, ⟨⟨rfl, rfl, shrinks.evictions⟩, shrinks.absent⟩, rfl,
        rfl, smaller⟩

theorem perform_room_enough (pool : BufferPool σ) (bound : Nat) (room : pool.resident < pool.capacity) :
    (makeRoomWithin (bound + 1)).perform pool = (.ok (), pool) := by
  simp only [makeRoomWithin, Step.perform_bind, Step.perform_get, if_pos room, Step.perform_pure]

theorem perform_room_full (pool later : BufferPool σ) (bound : Nat) (full : ¬pool.resident < pool.capacity)
    (evicted : evictOne.perform pool = (.ok (), later)) :
    (makeRoomWithin (bound + 1)).perform pool = (makeRoomWithin bound).perform later := by
  simp only [makeRoomWithin, Step.perform_bind, Step.perform_get, if_neg full, evicted]

theorem room_within_keeps (bound : Nat) (pool : BufferPool σ) (pages : List BucketPage) (contents : Contents)
    (keeps : Keeps pool pages contents) (enough : pool.resident ≤ bound) :
    ∃ later known, (makeRoomWithin bound).perform pool = (.ok (), later) ∧ Keeps later pages known ∧
      RoomMade pool later ∧ later.resident < later.capacity := by
  have roomy := keeps.roomy
  induction bound generalizing pool contents with
  | zero => exact ⟨pool, contents, rfl, keeps, room_made_refl pool, by omega⟩
  | succ bound ih =>
      by_cases room : pool.resident < pool.capacity
      · exact ⟨pool, contents, perform_room_enough pool bound room, keeps, room_made_refl pool, room⟩
      · obtain ⟨evicted, known, done, kept, shrinks, next, one, smaller⟩ :=
          evict_keeps pool pages contents keeps (by omega)
        obtain ⟨later, learned, finished, result, made, room'⟩ := ih evicted known kept (by omega) kept.roomy
        have risen := made.evictions
        refine ⟨later, learned, by rw [perform_room_full pool evicted bound room done, finished], result, ?_, room'⟩
        exact {
          toShrinks := shrinks_trans shrinks made.toShrinks
          next := made.next.trans next
          rests := fun same => absurd same (by omega)
          full := fun _ => Nat.le_of_not_lt room }

theorem make_room_keeps (pool : BufferPool σ) (pages : List BucketPage) (contents : Contents)
    (keeps : Keeps pool pages contents) :
    ∃ later known, makeRoom.perform pool = (.ok (), later) ∧ Keeps later pages known ∧ RoomMade pool later ∧
      later.resident < later.capacity :=
  room_within_keeps pool.resident pool pages contents keeps (Nat.le_refl _)

-- A frame takes the place of a page that is resident, or for which there is room.
theorem placed_keeps (pool : BufferPool σ) (pages fresh : List BucketPage) (contents : Contents) (id next : PageId)
    (frame : Frame) (keeps : Keeps pool pages contents) (counted : next.toNat = fresh.length)
    (here : fresh[id.toNat]? = some frame.page) (others : ∀ i, i ≠ id.toNat → fresh[i]? = pages[i]?)
    (named : frame.page.id = id) (fits : frame.page.entries.length ≤ BucketPage.capacity pool.pageSize)
    (saved : frame.dirty = false → contents id = some (frame.page.image pool.pageSize))
    (room : pool.frames.get? id = none → pool.resident < pool.capacity) :
    Keeps { pool with frames := pool.frames.insert id frame, next } fresh contents where
  headed := keeps.headed
  storable := keeps.storable
  roomy := keeps.roomy
  bounded := by
    cases held : pool.frames.get? id with
    | none => exact Nat.le_trans (SortedMap.size_insert_le pool.frames id frame) (room held)
    | some old => exact Nat.le_trans (Nat.le_of_eq (SortedMap.size_insert_held _ id frame old held)) keeps.bounded
  counted := counted
  numbered := by
    intro i page found
    by_cases same : i = id.toNat
    · rw [same, here] at found
      rw [← Option.some.inj found, named, same]
    · exact keeps.numbered i page (others i same ▸ found)
  fitting := by
    intro page member
    obtain ⟨i, found⟩ := List.mem_iff_getElem?.mp member
    by_cases same : i = id.toNat
    · rw [same, here] at found
      exact Option.some.inj found ▸ fits
    · exact keeps.fitting page (List.mem_of_getElem? (others i same ▸ found))
  faithful := keeps.faithful
  current := by
    intro other kept found
    rw [SortedMap.get?_insert] at found
    split at found
    · rename_i same
      rw [same, here, Option.some.inj found]
    · rename_i different
      rw [others _ fun same => different (UInt32.toNat_inj.mp same)]
      exact keeps.current other kept found
  clean := by
    intro other kept found unchanged
    rw [SortedMap.get?_insert] at found
    split at found
    · rename_i same
      rw [← Option.some.inj found] at unchanged ⊢
      exact same ▸ saved unchanged
    · exact keeps.clean other kept found unchanged
  absent := by
    intro other page found missing
    rw [SortedMap.get?_insert] at missing
    split at missing
    · cases missing
    · rename_i different
      rw [others _ fun same => different (UInt32.toNat_inj.mp same)] at found
      exact keeps.absent other page found missing

theorem perform_new_page (pool later : BufferPool σ) (depth : UInt16) (made : makeRoom.perform pool = (.ok (), later)) :
    (newPage depth).perform pool = (.ok later.next, { later with
      clock := later.clock + 1
      next := later.next + 1
      frames := later.frames.insert later.next ⟨⟨later.next, depth, []⟩, true, later.clock + 1⟩ }) := by
  simp only [newPage, Step.perform_bind, made, Step.perform_get, Step.perform_modify, tick, place, Step.perform_set,
    Step.perform_pure]

theorem new_page_keeps (pool : BufferPool σ) (pages : List BucketPage) (contents : Contents) (depth : UInt16)
    (keeps : Keeps pool pages contents) (numbers : pages.length + 1 < 2 ^ 32) :
    ∃ id later known, (newPage depth).perform pool = (.ok id, later) ∧ id.toNat = pages.length ∧
      Keeps later (pages ++ [⟨id, depth, []⟩]) known ∧ Grows pool later := by
  obtain ⟨roomy, known, made, kept, emptier, room⟩ := make_room_keeps pool pages contents keeps
  let page : BucketPage := ⟨roomy.next, depth, []⟩
  have number := kept.counted
  have counted : (roomy.next + 1).toNat = (pages ++ [page]).length := by
    rw [List.length_append, List.length_singleton, UInt32.toNat_add, number]
    exact Nat.mod_eq_of_lt numbers
  have here : (pages ++ [page])[roomy.next.toNat]? = some page := by simp [number]
  have others (i : Nat) (different : i ≠ roomy.next.toNat) : (pages ++ [page])[i]? = pages[i]? := by
    by_cases old : i < pages.length
    · exact List.getElem?_append_left old
    · rw [List.getElem?_eq_none (by simp; omega), List.getElem?_eq_none (by omega)]
  have placed := placed_keeps roomy pages (pages ++ [page]) known roomy.next (roomy.next + 1)
    ⟨page, true, roomy.clock + 1⟩ kept counted here others rfl (Nat.zero_le _) (by simp) fun _ => room
  have after : (roomy.next + 1).toNat = pool.next.toNat + 1 := by
    rw [counted, List.length_append, List.length_singleton, keeps.counted]
  refine ⟨roomy.next, _, known, perform_new_page pool roomy depth made, number,
    restamped_keeps placed (roomy.clock + 1) _, room_made_grows emptier rfl rfl rfl rfl ?_ ?_ ?_⟩
  · exact UInt32.le_iff_toNat_le.mpr (after ▸ Nat.le_succ _)
  · intro other old below
    have le : pool.next.toNat ≤ other.toNat := old
    have lt : other.toNat < (roomy.next + 1).toNat := below
    have same : roomy.next.toNat = pool.next.toNat := congrArg UInt32.toNat emptier.next
    exact UInt32.toNat_inj.mp (by omega)
  · exact after ▸ Nat.lt_succ_of_le (resident_le_next pool pages contents keeps)

theorem perform_load_resident (pool : BufferPool σ) (id : PageId) (frame : Frame) (allocated : ¬pool.next ≤ id)
    (held : pool.frames.get? id = some frame) :
    (load id).perform pool = (.ok { frame with lastUsed := pool.clock + 1 }, { pool with
      stats := { pool.stats with hits := pool.stats.hits + 1 }
      clock := pool.clock + 1
      frames := pool.frames.insert id { frame with lastUsed := pool.clock + 1 } }) := by
  simp only [load, Step.perform_bind, Step.perform_get, if_neg allocated, held, Step.perform_set, Step.perform_pure,
    tick, place, Step.perform_modify]

def missed (pool : BufferPool σ) : BufferPool σ := { pool with stats := { pool.stats with misses := pool.stats.misses + 1 } }

-- A page that is not in memory is looked for in the store once there is room for it.
theorem perform_load_missed (pool : BufferPool σ) (id : PageId) (allocated : ¬pool.next ≤ id)
    (missing : pool.frames.get? id = none) :
    (load id).perform pool =
      match makeRoom.perform pool.missed with
      | (.error e, roomy) => (.error e, roomy)
      | (.ok _, roomy) =>
          match (PageMedium.read id).perform roomy.store with
          | (.error e, store) => (.error e, { roomy with store })
          | (.ok bytes, store) =>
              match BucketPage.decode bytes with
              | .error e => (.error e, { roomy with store })
              | .ok page => (.ok ⟨page, false, roomy.clock + 1⟩, { roomy with
                  store
                  clock := roomy.clock + 1
                  frames := roomy.frames.insert id ⟨page, false, roomy.clock + 1⟩ }) := by
  simp only [load, Step.perform_bind, Step.perform_get, if_neg allocated, missing, Step.perform_set, missed, onStore]
  rcases makeRoom.perform { pool with stats := { pool.stats with misses := pool.stats.misses + 1 } } with ⟨_ | _, roomy⟩
  · rfl
  · dsimp only
    rw [Step.perform_onPart]
    rcases (PageMedium.read id).perform roomy.store with ⟨_ | bytes, store⟩
    · rfl
    · dsimp only
      cases BucketPage.decode bytes <;> rfl

theorem perform_load_absent (pool roomy : BufferPool σ) (id : PageId) (bytes : Bytes) (page : BucketPage) (store : σ)
    (allocated : ¬pool.next ≤ id) (missing : pool.frames.get? id = none)
    (made : makeRoom.perform pool.missed = (.ok (), roomy))
    (read : (PageMedium.read id).perform roomy.store = (.ok bytes, store)) (decoded : BucketPage.decode bytes = .ok page) :
    (load id).perform pool = (.ok ⟨page, false, roomy.clock + 1⟩, { roomy with
      store
      clock := roomy.clock + 1
      frames := roomy.frames.insert id ⟨page, false, roomy.clock + 1⟩ }) := by
  simp only [perform_load_missed pool id allocated missing, made, read, decoded]

theorem load_keeps (pool : BufferPool σ) (pages : List BucketPage) (contents : Contents) (id : PageId)
    (page : BucketPage) (keeps : Keeps pool pages contents) (allocated : pages[id.toNat]? = some page) :
    ∃ frame later known, (load id).perform pool = (.ok frame, later) ∧ frame.page = page ∧
      later.frames.get? id = some frame ∧ Keeps later pages known ∧ Grows pool later := by
  have bound : id.toNat < pool.next.toNat := by
    rw [keeps.counted]
    exact (List.getElem?_eq_some_iff.mp allocated).1
  have below : ¬pool.next ≤ id := Nat.not_le.mpr bound
  have fits := keeps.fitting page (List.mem_of_getElem? allocated)
  have named : page.id = id := UInt32.toNat_inj.mp (keeps.numbered id.toNat page allocated)
  cases held : pool.frames.get? id with
  | some frame =>
      have same : frame.page = page := Option.some.inj ((keeps.current id frame held).symm.trans allocated)
      refine ⟨_, _, contents, perform_load_resident pool id frame below held, same,
        SortedMap.get?_insert_same _ _ _, ?_, kept_grows ⟨rfl, rfl, Nat.le_refl _⟩ rfl rfl fun other missing =>
          (inserted_keeps_others _ _ _ _ missing).2⟩
      have placed := placed_keeps pool pages pages contents id pool.next { frame with lastUsed := pool.clock + 1 }
        keeps keeps.counted (same ▸ allocated) (fun _ _ => rfl) (same ▸ named) (same ▸ fits)
        (keeps.clean id frame held) (by simp [held])
      exact restamped_keeps placed _ _
  | none =>
      obtain ⟨roomy, known, made, kept, emptier, room⟩ :=
        make_room_keeps pool.missed pages contents (restamped_keeps keeps _ _)
      have missing := emptier.absent id held
      obtain ⟨store, read, faithful⟩ := read_known roomy.pageSize roomy.store known id _ kept.faithful
        (kept.absent id page allocated missing)
      have fits := kept.fitting page (List.mem_of_getElem? allocated)
      have loaded := perform_load_absent pool roomy id _ page store below held made read
        (BucketPage.decode_image page roomy.pageSize kept.headed fits)
      refine ⟨_, _, known, loaded, rfl, SortedMap.get?_insert_same _ _ _, ?_, ?_⟩
      · have restored : Keeps { roomy with store } pages known := { kept with faithful }
        have placed := placed_keeps _ pages pages known id roomy.next ⟨page, false, roomy.clock + 1⟩ restored
          kept.counted allocated (fun _ _ => rfl) named fits (fun _ => kept.absent id page allocated missing)
          fun _ => room
        exact restamped_keeps placed _ _
      · have same : roomy.next = pool.next := emptier.next
        have grown : Grows pool.missed { roomy with
            store
            clock := roomy.clock + 1
            frames := roomy.frames.insert id ⟨page, false, roomy.clock + 1⟩ } := by
          refine room_made_grows emptier rfl rfl rfl rfl (UInt32.le_of_eq same.symm) ?_ ?_
          · intro other old new
            exact absurd (same ▸ new) (Nat.not_lt.mpr old)
          · exact same ▸ resident_lt_next pool pages contents keeps id bound held
        exact { grown with }

theorem load_unallocated (pool : BufferPool σ) (pages : List BucketPage) (contents : Contents) (id : PageId)
    (keeps : Keeps pool pages contents) (missing : pages[id.toNat]? = none) :
    (load id).perform pool = (.error (.internal s!"page {id.toNat} was never allocated"), pool) := by
  have above : pool.next ≤ id := by
    rw [UInt32.le_iff_toNat_le, keeps.counted]
    exact List.getElem?_eq_none_iff.mp missing
  simp only [load, Step.perform_bind, Step.perform_get, if_pos above, Step.perform_throw]

theorem fetch_keeps (pool : BufferPool σ) (pages : List BucketPage) (contents : Contents) (id : PageId)
    (page : BucketPage) (keeps : Keeps pool pages contents) (allocated : pages[id.toNat]? = some page) :
    ∃ later known, (fetch id).perform pool = (.ok page, later) ∧ Keeps later pages known ∧ Grows pool later := by
  obtain ⟨frame, later, known, loaded, rfl, -, kept⟩ := load_keeps pool pages contents id page keeps allocated
  exact ⟨later, known, Step.perform_bind_ok loaded, kept⟩

theorem fetch_and_change_keeps (pool : BufferPool σ) (pages : List BucketPage) (contents : Contents) (id : PageId)
    (page : BucketPage) (change : BucketPage → BucketPage) (keeps : Keeps pool pages contents)
    (allocated : pages[id.toNat]? = some page) (named : (change page).id = page.id)
    (fits : (change page).entries.length ≤ BucketPage.capacity pool.pageSize) :
    ∃ later known, (fetchAndChange id change).perform pool = (.ok page, later) ∧
      Keeps later (pages.set id.toNat (change page)) known ∧ Grows pool later := by
  obtain ⟨frame, loaded, known, done, rfl, held, kept, grown⟩ :=
    load_keeps pool pages contents id page keeps allocated
  have bound := (List.getElem?_eq_some_iff.mp allocated).1
  have numbered : (change frame.page).id = id :=
    named.trans (UInt32.toNat_inj.mp (keeps.numbered id.toNat frame.page allocated))
  have placed := placed_keeps loaded pages (pages.set id.toNat (change frame.page)) known id loaded.next
    ⟨change frame.page, true, frame.lastUsed⟩ kept (by rw [List.length_set, kept.counted])
    (List.getElem?_set_self bound) (fun i different => List.getElem?_set_ne different.symm) numbered
    (grown.pageSize ▸ fits) (by simp) (by simp [held])
  refine ⟨_, known, Step.perform_bind_ok done, placed, grows_trans grown ?_⟩
  exact kept_grows ⟨rfl, rfl, Nat.le_refl _⟩ rfl rfl fun other missing => (inserted_keeps_others _ _ _ _ missing).2

end ShardQuery.BufferPool
