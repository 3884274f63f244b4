import ShardQuery.Proofs.Index.Losses
import ShardQuery.Proofs.Index.Residents
/-!
A buffer pool and the list of its pages over a medium that may fail. Main statements: a call about a listed page keeps
the list or changes it as asked, unless the medium refuses to take a page, and the page used last stays in memory while
another one is made.
-/

set_option autoImplicit false

namespace ShardQuery.PageMedium

variable {σ : Type} [PageMedium σ]

-- The medium has been used with pages of one size, whatever has come of it.
def Reaches (pageSize : Nat) (before after : σ) : Prop :=
  ∃ uses : List Use, (∀ use ∈ uses, use.fits pageSize) ∧ uses.foldl Use.on before = after

-- The last of some uses was to write a page, which the medium did not take.
def Refuses (pageSize : Nat) (before : σ) (e : EngineError) (after : σ) : Prop :=
  ∃ store id bytes, Reaches pageSize before store ∧ bytes.length = pageSize ∧
    (PageMedium.write id bytes).perform store = (.error e, after)

variable {pageSize : Nat} {first second third : σ} {e : EngineError}

theorem reaches_same (store : σ) : Reaches pageSize store store := ⟨[], by simp, rfl⟩

theorem reaches_use (store : σ) (use : Use) (fits : use.fits pageSize) : Reaches pageSize store (use.on store) :=
  ⟨[use], by simpa using fits, rfl⟩

theorem reaches_trans (reaches : Reaches pageSize first second) (reaches' : Reaches pageSize second third) :
    Reaches pageSize first third := by
  obtain ⟨uses, fits, rfl⟩ := reaches
  obtain ⟨more, fits', rfl⟩ := reaches'
  exact ⟨uses ++ more, fun use among => (List.mem_append.mp among).elim (fits use) (fits' use), List.foldl_append⟩

theorem reaches_refuses (reaches : Reaches pageSize first second) (refuses : Refuses pageSize second e third) :
    Refuses pageSize first e third := by
  obtain ⟨store, id, bytes, further, sized, refused⟩ := refuses
  exact ⟨store, id, bytes, reaches_trans reaches further, sized, refused⟩

end ShardQuery.PageMedium

namespace ShardQuery.BufferPool

open PageMedium

variable {σ : Type} [PageMedium σ]

-- The list has the page of number `i` at place `i`.
def shelf (pages : List BucketPage) : Kept := fun id => pages[id.toNat]?

-- The pages of a pool are those of the list, and the ones in memory were used in the given order.
structure Shelved (pool : BufferPool σ) (order : List PageId) (pages : List BucketPage) : Prop where
  tracks : ∃ contents, Tracks pool contents (shelf pages)
  ordered : Ordered pool order
  roomy : 2 ≤ pool.capacity
  storable : pool.pageSize ≤ Bytes.largest
  counted : pool.next.toNat = pages.length
  fitting : ∀ page ∈ pages, page.entries.length ≤ BucketPage.capacity pool.pageSize

-- What becomes of a pool and its medium in use.
structure Goes (before after : BufferPool σ) : Prop where
  pageSize : after.pageSize = before.pageSize
  reaches : Reaches before.pageSize before.store after.store

section Moves

variable {pool next later : BufferPool σ} {order : List PageId} {pages : List BucketPage} {id : PageId}
  {page : BucketPage}

theorem goes_refl (pool : BufferPool σ) : Goes pool pool := ⟨rfl, reaches_same _⟩

theorem goes_trans (first : Goes pool next) (second : Goes next later) : Goes pool later :=
  ⟨second.pageSize.trans first.pageSize, reaches_trans first.reaches (first.pageSize ▸ second.reaches)⟩

theorem goes_refuses {e : EngineError} {store : σ} (goes : Goes pool next)
    (refuses : Refuses next.pageSize next.store e store) : Refuses pool.pageSize pool.store e store :=
  reaches_refuses goes.reaches (goes.pageSize ▸ refuses)

theorem resident_listed (shelved : Shelved pool order pages) (resident : id ∈ order) :
    ∃ page, pages[id.toNat]? = some page := by
  obtain ⟨contents, tracks⟩ := shelved.tracks
  obtain ⟨frame, held⟩ := (shelved.ordered.members id).mp resident
  exact ⟨frame.page, tracks.resident id frame held⟩

theorem listed_allocated (shelved : Shelved pool order pages) (listed : pages[id.toNat]? = some page) :
    ¬pool.next ≤ id := by
  rw [UInt32.le_iff_toNat_le, shelved.counted]
  exact Nat.not_le.mpr (List.getElem?_eq_some_iff.mp listed).1

omit [PageMedium σ] in
theorem shelf_refilled (listed : pages[id.toNat]? = some page) (filled : BucketPage) :
    Function.update (shelf pages) id (some filled) = shelf (pages.set id.toNat filled) := by
  have bound := (List.getElem?_eq_some_iff.mp listed).1
  funext other
  by_cases same : other = id
  · rw [same, Function.update_self, shelf, List.getElem?_set_self bound]
  · rw [Function.update_of_ne same, shelf, shelf, List.getElem?_set_ne fun equal => same (UInt32.toNat_inj.mp equal.symm)]

omit [PageMedium σ] in
theorem shelf_unchanged (listed : pages[id.toNat]? = some page) :
    Function.update (shelf pages) id (some page) = shelf pages := by
  rw [Function.update_eq_self_iff, shelf, listed]

omit [PageMedium σ] in
theorem shelf_extended (number : id.toNat = pages.length) (page : BucketPage) :
    Function.update (shelf pages) id (some page) = shelf (pages ++ [page]) := by
  funext other
  by_cases same : other = id
  · rw [same, Function.update_self, shelf, number, List.getElem?_concat_length]
  · have different : other.toNat ≠ pages.length := fun equal => same (UInt32.toNat_inj.mp (equal.trans number.symm))
    rw [Function.update_of_ne same, shelf, shelf]
    rcases Nat.lt_or_gt_of_ne different with earlier | later
    · rw [List.getElem?_append_left earlier]
    · rw [List.getElem?_eq_none (Nat.le_of_lt later), List.getElem?_eq_none (by simp; omega)]

theorem make_shelved (store : σ) (capacity pageSize : Nat) (storable : pageSize ≤ Bytes.largest)
    (honest : Honest pageSize store noContents) : Shelved (make store capacity pageSize) [] [] where
  tracks := ⟨noContents, make_tracks store capacity pageSize honest⟩
  ordered := ⟨by simp [make, SortedMap.get?_empty], List.Pairwise.nil, by simp [make, SortedMap.get?_empty]⟩
  roomy := Nat.le_max_right _ _
  storable := storable
  counted := rfl
  fitting := by simp

theorem clear_shelved (shelved : Shelved pool order pages) : Shelved pool.clear [] [] where
  tracks := shelved.tracks.imp fun _ tracks => clear_tracks tracks
  ordered := ⟨by simp [clear, SortedMap.get?_empty], List.Pairwise.nil, by simp [clear, SortedMap.get?_empty]⟩
  roomy := shelved.roomy
  storable := shelved.storable
  counted := rfl
  fitting := by simp

-- How making room ends. The page used last is never the one that leaves, since there are two or more.
inductive RoomLeaves (pool : BufferPool σ) (order : List PageId) (pages : List BucketPage) :
    Outcome Unit → BufferPool σ → Prop
  | kept {rest roomy} (last : rest.getLast? = order.getLast?) (room : roomy.resident < roomy.capacity)
      (shelved : Shelved roomy rest pages) (goes : Goes pool roomy) : RoomLeaves pool order pages (.ok ()) roomy
  | refused {e roomy} (refuses : Refuses pool.pageSize pool.store e roomy.store) :
      RoomLeaves pool order pages (.error e) roomy

theorem victim_before_last (shelved : Shelved pool order pages) {frame : Frame} (full : ¬pool.resident < pool.capacity)
    (victim : pool.victim? = some (id, frame)) :
    ∃ rest, order = id :: rest ∧ rest.getLast? = order.getLast? := by
  have first := victim_first shelved.ordered victim
  have several := shelved.roomy
  rw [ordered_resident shelved.ordered] at full
  cases others : order.tail with
  | nil =>
      rw [first, others, List.length_singleton] at full
      omega
  | cons second rest =>
      rw [others] at first
      exact ⟨second :: rest, first, by rw [first, List.getLast?_cons_cons]⟩

theorem dropped_shelved (shelved : Shelved pool order pages) {frame : Frame} {contents : Contents}
    (full : ¬pool.resident < pool.capacity) (victim : pool.victim? = some (id, frame))
    (ends : RoomEnds pool (.ok ()) later) (frames : later.frames = (pool.dropped id).frames)
    (clock : later.clock = pool.clock) (goes : Goes pool later)
    (tracked : Tracks later contents (spared (shelf pages) pool.lostForRoom?)) (next : later.next = pool.next)
    (capacity : later.capacity = pool.capacity) : RoomLeaves pool order pages (.ok ()) later := by
  obtain ⟨rest, rfl, last⟩ := victim_before_last shelved full victim
  have ordered := dropped_ordered shelved.ordered
  obtain ⟨_, tracks⟩ := shelved.tracks
  rw [room_keeps_all ends] at tracked
  exact .kept last (evicted_room ends tracks.bounded)
    ⟨⟨contents, tracked⟩, ⟨frames ▸ ordered.members, frames ▸ ordered.ascending, clock ▸ frames ▸ ordered.past⟩,
      capacity ▸ shelved.roomy, goes.pageSize ▸ shelved.storable, next ▸ shelved.counted,
      goes.pageSize ▸ shelved.fitting⟩ goes

theorem room_leaves (shelved : Shelved pool order pages) :
    ∃ outcome later, makeRoom.perform pool = (outcome, later) ∧ RoomEnds pool outcome later ∧
      RoomLeaves pool order pages outcome later := by
  obtain ⟨contents, tracks⟩ := shelved.tracks
  obtain ⟨outcome, later, known, made, ends, tracked⟩ := room_tracks tracks
  refine ⟨outcome, later, made, ends, ?_⟩
  have whole := ends
  cases ends with
  | enough room => exact .kept rfl room shelved (goes_refl pool)
  | dropped full victim clean =>
      exact dropped_shelved shelved full victim whole rfl rfl ⟨rfl, reaches_same _⟩ tracked rfl rfl
  | @written id frame bytes full victim dirty encoded accepted =>
      have reaches := reaches_use pool.store (.write id bytes) (BucketPage.encoded_length encoded)
      exact dropped_shelved shelved full victim whole rfl rfl ⟨rfl, reaches⟩ tracked rfl rfl
  | unfit full victim dirty refused =>
      -- All pages fit, so that this cannot be the reason.
      have listed := tracks.resident _ _ (victim_resident pool _ _ victim)
      have fits := shelved.fitting _ (List.mem_of_getElem? listed)
      cases (BucketPage.encode_fitting _ _ shelved.storable fits).symm.trans refused
  | @refused id frame bytes e full victim dirty encoded failed =>
      exact .refused ⟨pool.store, id, bytes, reaches_same _, BucketPage.encoded_length encoded, Prod.ext failed rfl⟩

-- How the use of a listed page ends.
inductive UseLeaves (pool : BufferPool σ) (pages : List BucketPage) (id : PageId) (page : BucketPage) :
    Outcome BucketPage → BufferPool σ → Prop
  | found {order : List PageId} {later : BufferPool σ} (shelved : Shelved later (order ++ [id]) pages)
      (goes : Goes pool later) : UseLeaves pool pages id page (.ok page) later
  | failed {e} {order : List PageId} {later : BufferPool σ} (shelved : Shelved later order pages)
      (goes : Goes pool later) : UseLeaves pool pages id page (.error e) later
  | refused {e} {later : BufferPool σ} (refuses : Refuses pool.pageSize pool.store e later.store) :
      UseLeaves pool pages id page (.error e) later

theorem load_resident (shelved : Shelved pool order pages) (listed : pages[id.toNat]? = some page)
    (resident : id ∈ order) :
    ∃ frame later, (load id).perform pool = (.ok frame, later) ∧ frame.page = page ∧
      later.frames.get? id = some frame ∧ frame.lastUsed = later.clock ∧
      Touched pool later id (frame.dirty = true) ∧ Shelved later (order.filter (· != id) ++ [id]) pages ∧
      Goes pool later := by
  obtain ⟨contents, tracks⟩ := shelved.tracks
  obtain ⟨frame, held⟩ := (shelved.ordered.members id).mp resident
  obtain rfl : frame.page = page := Option.some.inj ((tracks.resident id frame held).symm.trans listed)
  have loaded := perform_load_resident pool id frame (listed_allocated shelved listed) held
  have touched : Touched pool { pool with
      stats := { pool.stats with hits := pool.stats.hits + 1 }
      clock := pool.clock + 1
      frames := pool.frames.insert id { frame with lastUsed := pool.clock + 1 } } id (frame.dirty = true) :=
    placed_touched rfl Iff.rfl rfl rfl rfl
  have placed := placed_tracks tracks id { frame with lastUsed := pool.clock + 1 }
    (fun clean => tracks.saved id frame.page listed fun there found =>
      Option.some.inj (held.symm.trans found) ▸ clean) (by simp [held])
  rw [shelf_unchanged listed] at placed
  exact ⟨_, _, loaded, rfl, SortedMap.get?_insert_same _ _ _, rfl, touched,
    ⟨⟨contents, restamped_tracks placed _ _ _⟩, touched_ordered shelved.ordered touched, shelved.roomy,
      shelved.storable, shelved.counted, shelved.fitting⟩, ⟨rfl, reaches_same _⟩⟩

theorem fetch_resident (shelved : Shelved pool order pages) (listed : pages[id.toNat]? = some page)
    (resident : id ∈ order) :
    ∃ later, (fetch id).perform pool = (.ok page, later) ∧ Shelved later (order.filter (· != id) ++ [id]) pages ∧
      Goes pool later := by
  obtain ⟨frame, later, loaded, rfl, -, -, -, left⟩ := load_resident shelved listed resident
  exact ⟨later, Step.perform_bind_ok loaded, left⟩

theorem change_resident (shelved : Shelved pool order pages) (listed : pages[id.toNat]? = some page)
    (resident : id ∈ order) (change : BucketPage → BucketPage)
    (fits : (change page).entries.length ≤ BucketPage.capacity pool.pageSize) :
    ∃ later, (fetchAndChange id change).perform pool = (.ok page, later) ∧
      Shelved later (order.filter (· != id) ++ [id]) (pages.set id.toNat (change page)) ∧ Goes pool later := by
  obtain ⟨frame, loaded, done, rfl, held, stamp, touched, shelved', goes⟩ := load_resident shelved listed resident
  obtain ⟨contents, tracks⟩ := shelved'.tracks
  have placed := placed_tracks tracks id ⟨change frame.page, true, frame.lastUsed⟩ nofun (by simp [held])
  have again : Touched pool { loaded with
      frames := loaded.frames.insert id ⟨change frame.page, true, frame.lastUsed⟩ } id True := by
    rw [stamp]
    exact placed_again touched (change frame.page) trivial
  rw [shelf_refilled listed] at placed
  refine ⟨_, Step.perform_bind_ok done, ⟨⟨contents, placed⟩, touched_ordered shelved.ordered again, shelved'.roomy,
    shelved'.storable, by rw [List.length_set]; exact shelved'.counted, fun filled among => ?_⟩,
    ⟨goes.pageSize, goes.reaches⟩⟩
  rcases List.mem_or_eq_of_mem_set among with before | rfl
  · exact shelved'.fitting filled before
  · exact goes.pageSize ▸ fits

theorem missed_shelved (shelved : Shelved pool order pages) : Shelved pool.missed order pages :=
  ⟨shelved.tracks.imp fun _ tracks => restamped_tracks tracks _ _ _,
    ⟨shelved.ordered.members, shelved.ordered.ascending, shelved.ordered.past⟩, shelved.roomy, shelved.storable,
    shelved.counted, shelved.fitting⟩

-- Once there is room for the page, the medium is read, and the page is placed if it could be read.
theorem missed_load_leaves {roomy : BufferPool σ} {outcome : Outcome Frame} (allocated : ¬pool.next ≤ id)
    (missing : pool.frames.get? id = none) (made : makeRoom.perform pool.missed = (.ok (), roomy))
    (loaded : (load id).perform pool = (outcome, later)) :
    (∃ e, outcome = .error e) ∧ later = { roomy with store := (Use.read id).on roomy.store } ∨
      ∃ found, outcome = .ok ⟨found, false, roomy.clock + 1⟩ ∧ later = { roomy with
        store := (Use.read id).on roomy.store
        clock := roomy.clock + 1
        frames := roomy.frames.insert id ⟨found, false, roomy.clock + 1⟩ } := by
  have read : (PageMedium.read id).perform roomy.store =
      (((PageMedium.read id).perform roomy.store).1, (Use.read id).on roomy.store) := rfl
  rw [perform_load_missed pool id allocated missing, made] at loaded
  dsimp only at loaded
  rw [read] at loaded
  cases got : ((PageMedium.read id).perform roomy.store).1 with
  | error e =>
      rw [got] at loaded
      cases loaded
      exact .inl ⟨⟨e, rfl⟩, rfl⟩
  | ok bytes =>
      rw [got] at loaded
      dsimp only at loaded
      cases decoded : BucketPage.decode bytes with
      | error e =>
          rw [decoded] at loaded
          cases loaded
          exact .inl ⟨⟨e, rfl⟩, rfl⟩
      | ok found =>
          rw [decoded] at loaded
          cases loaded
          exact .inr ⟨found, rfl, rfl⟩

theorem fetch_missing (shelved : Shelved pool order pages) (listed : pages[id.toNat]? = some page)
    (missing : pool.frames.get? id = none) :
    ∃ outcome later, (fetch id).perform pool = (outcome, later) ∧ UseLeaves pool pages id page outcome later := by
  obtain ⟨contents, tracks⟩ := shelved.tracks
  obtain ⟨outcome, later, loaded, ends⟩ := load_ends tracks id
  have allocated := listed_allocated shelved listed
  obtain ⟨made, roomy, room, roomEnds, leaves⟩ := room_leaves (missed_shelved shelved)
  cases leaves with
  | refused refuses =>
      have failed := loaded
      rw [perform_load_missed pool id allocated missing, room] at failed
      cases failed
      exact ⟨_, _, Step.perform_bind_error loaded, .refused refuses⟩
  | @kept rest _ last _ shelved' goes =>
      have all := room_keeps_all roomEnds
      have nothing : pool.lostForLoad? id = none := (allocated_lost allocated missing).trans all
      have read : Goes pool { roomy with store := (Use.read id).on roomy.store } :=
        goes_trans ⟨goes.pageSize, goes.reaches⟩ ⟨rfl, reaches_use roomy.store (.read id) trivial⟩
      rcases missed_load_leaves allocated missing room loaded with ⟨⟨e, rfl⟩, rfl⟩ | ⟨found, rfl, rfl⟩
      · cases ends with
        | @failed _ _ known tracked spares =>
            rw [nothing] at tracked
            exact ⟨_, _, Step.perform_bind_error loaded, .failed ⟨⟨known, tracked⟩,
              ⟨shelved'.ordered.members, shelved'.ordered.ascending, shelved'.ordered.past⟩, shelved'.roomy,
              shelved'.storable, shelved'.counted, shelved'.fitting⟩ read⟩
      · cases ends with
        | @found _ _ known next held same tracked =>
            obtain rfl : found = page := same page listed
            rw [shelf_unchanged listed] at tracked
            have touched : Touched roomy { roomy with
                store := (Use.read id).on roomy.store
                clock := roomy.clock + 1
                frames := roomy.frames.insert id ⟨found, false, roomy.clock + 1⟩ } id False :=
              placed_touched rfl (by simp) rfl rfl rfl
            exact ⟨_, _, Step.perform_bind_ok loaded, .found ⟨⟨known, tracked⟩,
              touched_ordered shelved'.ordered touched, shelved'.roomy, shelved'.storable, shelved'.counted,
              shelved'.fitting⟩ ⟨read.pageSize, read.reaches⟩⟩

theorem fetch_leaves (shelved : Shelved pool order pages) (listed : pages[id.toNat]? = some page) :
    ∃ outcome later, (fetch id).perform pool = (outcome, later) ∧ UseLeaves pool pages id page outcome later := by
  cases held : pool.frames.get? id with
  | none => exact fetch_missing shelved listed held
  | some frame =>
      obtain ⟨later, fetched, shelved', goes⟩ :=
        fetch_resident shelved listed ((shelved.ordered.members id).mpr ⟨frame, held⟩)
      exact ⟨_, later, fetched, .found shelved' goes⟩

-- How the allocation of a page ends. The page used last before it is still in memory.
inductive NewLeaves (pool : BufferPool σ) (order : List PageId) (pages : List BucketPage) (depth : UInt16) :
    Outcome PageId → BufferPool σ → Prop
  | made {id rest later} (number : id.toNat = pages.length) (last : ∀ used, order.getLast? = some used → used ∈ rest)
      (shelved : Shelved later (rest ++ [id]) (pages ++ [⟨id, depth, []⟩])) (goes : Goes pool later) :
      NewLeaves pool order pages depth (.ok id) later
  | refused {e later} (refuses : Refuses pool.pageSize pool.store e later.store) :
      NewLeaves pool order pages depth (.error e) later

theorem new_page_leaves (shelved : Shelved pool order pages) (depth : UInt16) (numbers : pages.length + 1 < 2 ^ 32) :
    ∃ outcome later, (newPage depth).perform pool = (outcome, later) ∧ NewLeaves pool order pages depth outcome later := by
  obtain ⟨outcome, roomy, made, ends, leaves⟩ := room_leaves shelved
  cases leaves with
  | refused refuses => exact ⟨_, _, Step.perform_bind_error made, .refused refuses⟩
  | @kept rest _ last room shelved' goes =>
      obtain ⟨contents, tracks⟩ := shelved'.tracks
      have number := shelved'.counted
      have placed := placed_tracks tracks roomy.next ⟨⟨roomy.next, depth, []⟩, true, roomy.clock + 1⟩ nofun fun _ => room
      rw [shelf_extended number] at placed
      have touched : Touched roomy { roomy with
          clock := roomy.clock + 1
          next := roomy.next + 1
          frames := roomy.frames.insert roomy.next ⟨⟨roomy.next, depth, []⟩, true, roomy.clock + 1⟩ } roomy.next True :=
        placed_touched rfl (by simp) rfl rfl rfl
      have ordered := touched_ordered shelved'.ordered touched
      refine ⟨_, _, perform_new_page pool roomy depth made, .made number (fun used recent => ?_)
        ⟨⟨contents, restamped_tracks placed _ _ _⟩, ordered, shelved'.roomy, shelved'.storable, ?_, fun page among => ?_⟩
        ⟨goes.pageSize, goes.reaches⟩⟩
      · have among : used ∈ rest := List.mem_of_getLast? (last.trans recent)
        obtain ⟨page, listed⟩ := resident_listed shelved' among
        refine List.mem_filter.mpr ⟨among, bne_iff_ne.mpr ?_⟩
        rintro rfl
        exact Nat.lt_irrefl _ (number ▸ (List.getElem?_eq_some_iff.mp listed).1)
      · rw [List.length_append, List.length_singleton, UInt32.toNat_add, number]
        exact Nat.mod_eq_of_lt numbers
      · rcases List.mem_append.mp among with before | last
        · exact shelved'.fitting page before
        · rw [List.mem_singleton.mp last]
          exact Nat.zero_le _

end Moves

end ShardQuery.BufferPool
