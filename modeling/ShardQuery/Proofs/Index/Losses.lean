import Mathlib.Data.List.Induction
import Mathlib.Logic.Function.Basic
import ShardQuery.Proofs.Index.AsPages
import ShardQuery.Proofs.Index.Room
/-!
What a call of a buffer pool may lose. Main statement: whichever reads and writes of the medium fail, a call that fails
loses at most the page that it takes out of memory to make room and cannot write out, and every other page keeps its
content.
-/

set_option autoImplicit false

namespace ShardQuery.BufferPool

open PageMedium

variable {σ : Type} [PageMedium σ]

-- The content of each page, as far as no call has lost it.
abbrev Kept := PageId → Option BucketPage

def spared (kept : Kept) : Option PageId → Kept
  | none => kept
  | some id => Function.update kept id none

-- The store has a form of the page, and no other page is decoded from it.
def Saved (contents : Contents) (id : PageId) (page : BucketPage) : Prop :=
  ∃ bytes, contents id = some bytes ∧ ∀ found, BucketPage.decode bytes = .ok found → found = page

-- A page in memory is the page as it should be. A page that may be read from the store is saved there, if it is kept.
structure Tracks (pool : BufferPool σ) (contents : Contents) (kept : Kept) : Prop where
  honest : Honest pool.pageSize pool.store contents
  roomy : 0 < pool.capacity
  bounded : pool.resident ≤ pool.capacity
  resident : ∀ id frame, pool.frames.get? id = some frame → kept id = some frame.page
  saved : ∀ id page, kept id = some page → (∀ frame, pool.frames.get? id = some frame → frame.dirty = false) →
    Saved contents id page

section Tracked

variable {pool : BufferPool σ} {contents : Contents} {kept : Kept}

theorem make_tracks (store : σ) (capacity pageSize : Nat) (honest : Honest pageSize store noContents) :
    Tracks (make store capacity pageSize) noContents fun _ => none where
  honest := honest
  roomy := Nat.lt_of_lt_of_le Nat.two_pos (Nat.le_max_right _ _)
  bounded := Nat.zero_le _
  resident := by simp [make, SortedMap.get?_empty]
  saved := by simp

theorem clear_tracks (tracks : Tracks pool contents kept) : Tracks pool.clear contents fun _ => none where
  honest := tracks.honest
  roomy := tracks.roomy
  bounded := Nat.zero_le _
  resident := by simp [clear, SortedMap.get?_empty]
  saved := by simp

theorem restamped_tracks (tracks : Tracks pool contents kept) (next : PageId) (clock : Nat) (stats : PoolStats) :
    Tracks { pool with next, clock, stats } contents kept :=
  { tracks with }

-- One page leaves memory, and nothing else is known to have changed.
theorem dropped_tracks (tracks : Tracks pool contents kept) (id : PageId) (frame : Frame) (store : σ)
    (known : Contents) (after : Kept) (held : pool.frames.get? id = some frame)
    (honest : Honest pool.pageSize store known)
    (others : ∀ other, other ≠ id → known other = contents other ∧ after other = kept other)
    (saved : ∀ page, after id = some page → Saved known id page) :
    Tracks { pool.dropped id with store } known after where
  honest := honest
  roomy := tracks.roomy
  bounded := Nat.le_trans (Nat.le_of_lt (dropped_resident pool id frame held)) tracks.bounded
  resident := by
    intro other there found
    obtain ⟨different, found⟩ := dropped_held.mp found
    rw [(others other different).2]
    exact tracks.resident other there found
  saved := by
    intro other page keeps clean
    by_cases same : other = id
    · exact same ▸ saved page (same ▸ keeps)
    · obtain ⟨bytes, stored, faithful⟩ := tracks.saved other page ((others other same).2 ▸ keeps) fun there found =>
        clean there (dropped_held.mpr ⟨same, found⟩)
      exact ⟨bytes, (others other same).1.trans stored, faithful⟩

theorem placed_tracks (tracks : Tracks pool contents kept) (id : PageId) (frame : Frame)
    (saved : frame.dirty = false → Saved contents id frame.page)
    (room : pool.frames.get? id = none → pool.resident < pool.capacity) :
    Tracks { pool with frames := pool.frames.insert id frame } contents
      (Function.update kept id (some frame.page)) where
  honest := tracks.honest
  roomy := tracks.roomy
  bounded := by
    cases held : pool.frames.get? id with
    | none => exact Nat.le_trans (SortedMap.size_insert_le pool.frames id frame) (room held)
    | some old => exact Nat.le_trans (Nat.le_of_eq (SortedMap.size_insert_held _ id frame old held)) tracks.bounded
  resident := by
    intro other there found
    rw [SortedMap.get?_insert] at found
    split at found
    · rename_i same
      rw [same, Function.update_self, Option.some.inj found]
    · rename_i different
      rw [Function.update_of_ne different]
      exact tracks.resident other there found
  saved := by
    intro other page keeps clean
    by_cases same : other = id
    · subst other
      rw [Function.update_self] at keeps
      rw [← Option.some.inj keeps]
      exact saved (clean frame (SortedMap.get?_insert_same _ _ _))
    · rw [Function.update_of_ne same] at keeps
      refine tracks.saved other page keeps fun there found => clean there ?_
      rw [SortedMap.get?_insert, if_neg same]
      exact found

theorem room_tracks (tracks : Tracks pool contents kept) :
    ∃ outcome later known, makeRoom.perform pool = (outcome, later) ∧ RoomEnds pool outcome later ∧
      Tracks later known (spared kept pool.lostForRoom?) := by
  obtain ⟨outcome, later, made, ends⟩ := room_ends tracks.roomy tracks.bounded
  refine ⟨outcome, later, ?_⟩
  cases ends with
  | enough room =>
      refine ⟨contents, made, .enough room, ?_⟩
      rw [lostForRoom?, if_pos room]
      exact tracks
  | @dropped id frame full victim clean =>
      have held := victim_resident pool id frame victim
      refine ⟨contents, made, .dropped full victim clean, ?_⟩
      rw [room_keeps_all (.dropped full victim clean)]
      refine dropped_tracks tracks id frame pool.store contents kept held tracks.honest (fun _ _ => ⟨rfl, rfl⟩) ?_
      intro page keeps
      exact tracks.saved id page keeps fun there found => Option.some.inj (held.symm.trans found) ▸ clean
  | @written id frame bytes full victim dirty encoded accepted =>
      have held := victim_resident pool id frame victim
      refine ⟨contents.put id bytes, made, .written full victim dirty encoded accepted, ?_⟩
      rw [room_keeps_all (.written full victim dirty encoded accepted)]
      refine restamped_tracks (dropped_tracks tracks id frame _ _ kept held
        (honest_accepted tracks.honest (BucketPage.encoded_length encoded) accepted) ?_ ?_) _ _ _
      · intro other different
        exact ⟨if_neg different, rfl⟩
      · intro page keeps
        rw [← Option.some.inj ((tracks.resident id frame held).symm.trans keeps)]
        exact ⟨bytes, if_pos rfl, fun found => BucketPage.decode_encoded encoded⟩
  | @unfit id frame e full victim dirty refused =>
      have held := victim_resident pool id frame victim
      refine ⟨contents, made, .unfit full victim dirty refused, ?_⟩
      rw [lost_of_refused full victim dirty (by rw [writeOut, refused])]
      refine dropped_tracks tracks id frame pool.store contents _ held tracks.honest ?_ ?_
      · intro other different
        exact ⟨rfl, Function.update_of_ne different _ _⟩
      · intro page keeps
        rw [spared, Function.update_self] at keeps
        cases keeps
  | @refused id frame bytes e full victim dirty encoded failed =>
      have held := victim_resident pool id frame victim
      refine ⟨contents.forget id, made, .refused full victim dirty encoded failed, ?_⟩
      rw [lost_of_refused full victim dirty (by rw [writeOut, encoded]; exact failed)]
      refine dropped_tracks tracks id frame _ _ _ held
        (honest_refused tracks.honest (BucketPage.encoded_length encoded) failed) ?_ ?_
      · intro other different
        exact ⟨if_neg different, Function.update_of_ne different _ _⟩
      · intro page keeps
        rw [spared, Function.update_self] at keeps
        cases keeps

theorem reread_tracks (tracks : Tracks pool contents kept) (id : PageId) (bytes : Bytes)
    (done : ((PageMedium.read id).perform pool.store).1 = .ok bytes) :
    Tracks { pool with store := (Use.read id).on pool.store } (contents.put id bytes) kept where
  honest := honest_reread tracks.honest done
  roomy := tracks.roomy
  bounded := tracks.bounded
  resident := tracks.resident
  saved := by
    intro other page keeps clean
    obtain ⟨stored, known, faithful⟩ := tracks.saved other page keeps clean
    by_cases same : other = id
    · subst other
      exact ⟨bytes, if_pos rfl, honest_read tracks.honest known done ▸ faithful⟩
    · exact ⟨stored, (if_neg same).trans known, faithful⟩

end Tracked

def lostForLoad? (pool : BufferPool σ) (id : PageId) : Option PageId :=
  if id < pool.next ∧ pool.frames.get? id = none then pool.lostForRoom? else none

section Loading

variable {pool : BufferPool σ} {contents : Contents} {kept : Kept} {id : PageId}

theorem perform_load_above (above : pool.next ≤ id) : (load id).perform pool = (.error (unallocated id), pool) := by
  simp only [load, Step.perform_bind, Step.perform_get, if_pos above, Step.perform_throw]
  rfl

theorem allocated_lost (allocated : ¬pool.next ≤ id) (missing : pool.frames.get? id = none) :
    pool.lostForLoad? id = pool.lostForRoom? := if_pos ⟨Nat.lt_of_not_le allocated, missing⟩

-- How a load ends: with the page in memory as it is kept, or with the loss of no page but the victim.
inductive LoadEnds (pool : BufferPool σ) (kept : Kept) (id : PageId) : Outcome Frame → BufferPool σ → Prop
  | found {frame later known} (next : later.next = pool.next) (held : later.frames.get? id = some frame)
      (same : ∀ page, kept id = some page → frame.page = page)
      (tracks : Tracks later known (Function.update kept id (some frame.page))) : LoadEnds pool kept id (.ok frame) later
  | failed {e later known} (tracks : Tracks later known (spared kept (pool.lostForLoad? id)))
      (spares : Spares pool later (pool.lostForLoad? id)) : LoadEnds pool kept id (.error e) later

theorem loses_nothing {later : BufferPool σ} {e : EngineError} (lost : pool.lostForLoad? id = none)
    (tracks : Tracks later contents kept) (spares : Spares pool later none) : LoadEnds pool kept id (.error e) later :=
  .failed (by rw [lost]; exact tracks) (by rw [lost]; exact spares)

theorem missed_ends (tracks : Tracks pool contents kept) (allocated : ¬pool.next ≤ id)
    (missing : pool.frames.get? id = none) :
    ∃ outcome later, (load id).perform pool = (outcome, later) ∧ LoadEnds pool kept id outcome later := by
  obtain ⟨outcome, roomy, known, made, ends, tracked⟩ := room_tracks
    (restamped_tracks tracks pool.next pool.clock { pool.stats with misses := pool.stats.misses + 1 })
  have spares := room_spares ends
  have absent := room_absent ends id missing
  rw [perform_load_missed pool id allocated missing, show makeRoom.perform pool.missed = (outcome, roomy) from made]
  cases outcome with
  | error e =>
      have lost : pool.lostForLoad? id = pool.missed.lostForRoom? := allocated_lost allocated missing
      exact ⟨_, _, rfl, .failed (lost ▸ tracked) (lost ▸ ⟨spares.next, spares.resident, spares.gone⟩)⟩
  | ok _ =>
      have nothing := room_keeps_all ends
      have lost : pool.lostForLoad? id = none := (allocated_lost allocated missing).trans nothing
      have room := evicted_room ends tracks.bounded
      rw [nothing] at tracked spares
      have read (outcome : Outcome Bytes) (ended : ((PageMedium.read id).perform roomy.store).1 = outcome) :
          (PageMedium.read id).perform roomy.store = (outcome, (Use.read id).on roomy.store) := Prod.ext ended rfl
      cases ended : ((PageMedium.read id).perform roomy.store).1 with
      | error e =>
          have unread : Tracks { roomy with store := (Use.read id).on roomy.store } known kept :=
            { tracked with honest := honest_unread tracked.honest ended }
          simp only [read _ ended]
          exact ⟨_, _, rfl, loses_nothing lost unread ⟨spares.next, spares.resident, spares.gone⟩⟩
      | ok bytes =>
          have reread := reread_tracks tracked id bytes ended
          simp only [read _ ended]
          cases decoded : BucketPage.decode bytes with
          | error e => exact ⟨_, _, rfl, loses_nothing lost reread ⟨spares.next, spares.resident, spares.gone⟩⟩
          | ok page =>
              have placed := placed_tracks reread id ⟨page, false, roomy.clock + 1⟩
                (fun _ => ⟨bytes, if_pos rfl, fun found again => Except.ok.inj (again.symm.trans decoded)⟩)
                fun _ => room
              refine ⟨_, _, rfl, .found spares.next (SortedMap.get?_insert_same _ _ _) (fun found keeps => ?_)
                (restamped_tracks placed _ _ _)⟩
              obtain ⟨stored, same, faithful⟩ := tracked.saved id found keeps fun frame there =>
                absurd (there.symm.trans absent) (Option.some_ne_none frame)
              exact faithful page (honest_read tracked.honest same ended ▸ decoded)

theorem load_ends (tracks : Tracks pool contents kept) (id : PageId) :
    ∃ outcome later, (load id).perform pool = (outcome, later) ∧ LoadEnds pool kept id outcome later := by
  by_cases above : pool.next ≤ id
  · have none : pool.lostForLoad? id = none := if_neg fun both => Nat.not_lt.mpr above both.1
    exact ⟨_, pool, perform_load_above above,
      loses_nothing none tracks ⟨rfl, fun _ _ held _ => .inl held, nofun⟩⟩
  · cases held : pool.frames.get? id with
    | none => exact missed_ends tracks above held
    | some frame =>
        have known := tracks.resident id frame held
        have placed := placed_tracks tracks id { frame with lastUsed := pool.clock + 1 }
          (fun clean => tracks.saved id frame.page known fun there found =>
            Option.some.inj (held.symm.trans found) ▸ clean) (by simp [held])
        exact ⟨_, _, perform_load_resident pool id frame above held, .found rfl (SortedMap.get?_insert_same _ _ _)
          (fun page keeps => Option.some.inj (known.symm.trans keeps)) (restamped_tracks placed _ _ _)⟩

end Loading

inductive PageCall where
  | newPage (depth : UInt16)
  | fetch (id : PageId)
  | change (id : PageId) (edit : BucketPage → BucketPage)
  | clear

def PageCall.step : PageCall → Step (BufferPool σ) PoolAnswer
  | .newPage depth => return .made (← BufferPool.newPage depth)
  | .fetch id => return .found (← BufferPool.fetch id)
  | .change id edit => return .found (← fetchAndChange id edit)
  | .clear => do
      modify BufferPool.clear
      return .cleared

-- What the answer to a call tells of the pages.
def PageCall.keep (kept : Kept) : PageCall → PoolAnswer → Kept
  | .newPage depth, .made id => Function.update kept id (some ⟨id, depth, []⟩)
  | .fetch id, .found page => Function.update kept id (some page)
  | .change id edit, .found page => Function.update kept id (some (edit page))
  | .clear, .cleared => fun _ => none
  | _, _ => kept

def PageCall.loses? (pool : BufferPool σ) : PageCall → Option PageId
  | .newPage _ => pool.lostForRoom?
  | .fetch id => pool.lostForLoad? id
  | .change id _ => pool.lostForLoad? id
  | .clear => none

-- A pool in use, with the content that each page should have by the answers to the calls.
structure Observed (σ : Type) where
  pool : BufferPool σ
  kept : Kept

def Observed.call (seen : Observed σ) (call : PageCall) : Observed σ :=
  match call.step.perform seen.pool with
  | (.ok answer, later) => ⟨later, call.keep seen.kept answer⟩
  | (.error _, later) => ⟨later, spared seen.kept (call.loses? seen.pool)⟩

def Observed.run (pool : BufferPool σ) (calls : List PageCall) : Observed σ :=
  calls.foldl Observed.call ⟨pool, fun _ => none⟩

section Calls

variable {seen : Observed σ} {contents : Contents}

-- The pages that are allocated and not kept after a call were so before it.
def NoneForgotten (before : Observed σ) (next : PageId) (kept : Kept) : Prop :=
  ∀ id, id < next → kept id = none → id < before.pool.next ∧ before.kept id = none

omit [PageMedium σ] in
theorem updated_none_forgotten (id : PageId) (page : BucketPage) {next : PageId} (same : next = seen.pool.next) :
    NoneForgotten seen next (Function.update seen.kept id (some page)) := by
  intro other allocated unknown
  by_cases named : other = id
  · rw [named, Function.update_self] at unknown
    cases unknown
  · rw [Function.update_of_ne named] at unknown
    exact ⟨same ▸ allocated, unknown⟩

omit [PageMedium σ] in
theorem made_none_forgotten (page : BucketPage) :
    NoneForgotten seen (seen.pool.next + 1) (Function.update seen.kept seen.pool.next (some page)) := by
  intro other allocated unknown
  by_cases named : other = seen.pool.next
  · rw [named, Function.update_self] at unknown
    cases unknown
  · rw [Function.update_of_ne named] at unknown
    have bound : other.toNat < (seen.pool.next.toNat + 1) % 2 ^ 32 := UInt32.lt_iff_toNat_lt.mp allocated
    have different : other.toNat ≠ seen.pool.next.toNat := fun same => named (UInt32.toNat_inj.mp same)
    have small := Nat.mod_le (seen.pool.next.toNat + 1) (2 ^ 32)
    exact ⟨UInt32.lt_iff_toNat_lt.mpr (by omega), unknown⟩

theorem call_tracks (tracks : Tracks seen.pool contents seen.kept) (call : PageCall) :
    (∃ answer later known, call.step.perform seen.pool = (.ok answer, later) ∧
      Tracks later known (call.keep seen.kept answer) ∧ NoneForgotten seen later.next (call.keep seen.kept answer)) ∨
    ∃ e later known, call.step.perform seen.pool = (.error e, later) ∧
      Tracks later known (spared seen.kept (call.loses? seen.pool)) ∧ Spares seen.pool later (call.loses? seen.pool) := by
  cases call with
  | newPage depth =>
      obtain ⟨outcome, later, known, made, ends, tracked⟩ := room_tracks tracks
      have spares := room_spares ends
      rw [PageCall.step, PageCall.loses?]
      cases outcome with
      | error e =>
          have failed : (newPage depth).perform seen.pool = (.error e, later) := Step.perform_bind_error made
          exact .inr ⟨e, later, known, Step.perform_bind_error failed, tracked, spares⟩
      | ok _ =>
          have room := evicted_room ends tracks.bounded
          rw [room_keeps_all ends] at tracked
          have placed := placed_tracks tracked later.next ⟨⟨later.next, depth, []⟩, true, later.clock + 1⟩ nofun
            fun _ => room
          refine .inl ⟨_, _, known, Step.perform_bind_ok (perform_new_page seen.pool later depth made),
            restamped_tracks placed (later.next + 1) (later.clock + 1) later.stats, ?_⟩
          rw [PageCall.keep, spares.next]
          exact made_none_forgotten _
  | fetch id =>
      rw [PageCall.step, PageCall.loses?]
      obtain ⟨outcome, later, loaded, ends⟩ := load_ends tracks id
      cases ends with
      | @found frame _ known next held same tracked =>
          have fetched : (fetch id).perform seen.pool = (.ok frame.page, later) := Step.perform_bind_ok loaded
          exact .inl ⟨_, _, known, Step.perform_bind_ok fetched, tracked, updated_none_forgotten id frame.page next⟩
      | @failed e _ known tracked spares =>
          have unfetched : (fetch id).perform seen.pool = (.error e, later) := Step.perform_bind_error loaded
          exact .inr ⟨e, later, known, Step.perform_bind_error unfetched, tracked, spares⟩
  | change id edit =>
      rw [PageCall.step, PageCall.loses?]
      obtain ⟨outcome, later, loaded, ends⟩ := load_ends tracks id
      cases ends with
      | @found frame _ known next held same tracked =>
          have changed : (fetchAndChange id edit).perform seen.pool = (.ok frame.page, { later with
              frames := later.frames.insert id ⟨edit frame.page, true, frame.lastUsed⟩ }) := Step.perform_bind_ok loaded
          have placed := placed_tracks tracked id ⟨edit frame.page, true, frame.lastUsed⟩ nofun (by simp [held])
          rw [Function.update_idem] at placed
          exact .inl ⟨_, _, known, Step.perform_bind_ok changed, placed,
            updated_none_forgotten id (edit frame.page) next⟩
      | @failed e _ known tracked spares =>
          have unchanged : (fetchAndChange id edit).perform seen.pool = (.error e, later) :=
            Step.perform_bind_error loaded
          exact .inr ⟨e, later, known, Step.perform_bind_error unchanged, tracked, spares⟩
  | clear => exact .inl ⟨_, _, contents, rfl, clear_tracks tracks, fun id allocated => absurd allocated (Nat.not_lt_zero _)⟩

theorem observed_tracks (tracks : Tracks seen.pool contents seen.kept) (call : PageCall) :
    ∃ known, Tracks (seen.call call).pool known (seen.call call).kept := by
  rcases call_tracks tracks call with ⟨answer, later, known, done, tracked, -⟩ | ⟨e, later, known, failed, tracked, -⟩
  · exact ⟨known, by rw [Observed.call, done]; exact tracked⟩
  · exact ⟨known, by rw [Observed.call, failed]; exact tracked⟩

theorem failed_call_spares {call : PageCall} {e : EngineError} (tracks : Tracks seen.pool contents seen.kept)
    (failed : (call.step.perform seen.pool).1 = .error e) :
    (seen.call call).kept = spared seen.kept (call.loses? seen.pool) ∧
      Spares seen.pool (seen.call call).pool (call.loses? seen.pool) := by
  rcases call_tracks tracks call with ⟨answer, later, -, done, -⟩ | ⟨e', later, -, ended, -, spares⟩
  · cases (congrArg Prod.fst done).symm.trans failed
  · rw [Observed.call, ended]
    exact ⟨rfl, spares⟩

theorem run_tracks (calls : List PageCall) (tracks : Tracks seen.pool contents seen.kept) :
    ∃ known, Tracks (calls.foldl Observed.call seen).pool known (calls.foldl Observed.call seen).kept := by
  induction calls generalizing seen contents with
  | nil => exact ⟨contents, tracks⟩
  | cons call calls ih =>
      obtain ⟨known, tracked⟩ := observed_tracks tracks call
      exact ih tracked

-- A page that is kept is found as it is kept, or not at all.
theorem fetched_as_kept (tracks : Tracks seen.pool contents seen.kept) (id : PageId) (page found : BucketPage)
    (keeps : seen.kept id = some page) (done : ((fetch id).perform seen.pool).1 = .ok found) : found = page := by
  obtain ⟨outcome, later, loaded, ends⟩ := load_ends tracks id
  cases ends with
  | found next held same tracked =>
      rw [fetch, Step.perform_bind_ok loaded] at done
      exact (Except.ok.inj done).symm.trans (same page keeps)
  | failed tracked spares =>
      rw [fetch, Step.perform_bind_error loaded] at done
      cases done

-- One of the calls has failed and lost the page.
def LostBy (pool : BufferPool σ) (calls : List PageCall) (id : PageId) : Prop :=
  ∃ earlier call rest e, calls = earlier ++ call :: rest ∧
    (call.step.perform (Observed.run pool earlier).pool).1 = .error e ∧
    call.loses? (Observed.run pool earlier).pool = some id

theorem spared_unknown {kept : Kept} {lost? : Option PageId} {id : PageId} (unknown : spared kept lost? id = none) :
    kept id = none ∨ lost? = some id := by
  cases lost? with
  | none => exact .inl unknown
  | some lost =>
      by_cases same : id = lost
      · exact .inr (same ▸ rfl)
      · exact .inl (Function.update_of_ne same none kept ▸ unknown)

theorem spared_other {kept : Kept} {lost? : Option PageId} {id : PageId} (other : lost? ≠ some id) :
    spared kept lost? id = kept id := by
  cases lost? with
  | none => rfl
  | some lost => exact Function.update_of_ne (fun same => other (congrArg some same.symm)) none kept

theorem run_append (pool : BufferPool σ) (calls : List PageCall) (call : PageCall) :
    Observed.run pool (calls ++ [call]) = (Observed.run pool calls).call call := by
  rw [Observed.run, List.foldl_append, List.foldl_cons, List.foldl_nil, Observed.run]

theorem kept_unless_lost {pool : BufferPool σ} (new : pool.next = 0) (tracks : Tracks pool contents fun _ => none)
    (calls : List PageCall) (id : PageId) (allocated : id < (Observed.run pool calls).pool.next)
    (unknown : (Observed.run pool calls).kept id = none) : LostBy pool calls id := by
  induction calls using List.reverseRecOn with
  | nil => exact absurd (new ▸ allocated : id < 0) (Nat.not_lt_zero _)
  | append_singleton calls call ih =>
      have longer (lost : LostBy pool calls id) : LostBy pool (calls ++ [call]) id := by
        obtain ⟨earlier, first, rest, e, split, failed, loses⟩ := lost
        exact ⟨earlier, first, rest ++ [call], e, by simp [split], failed, loses⟩
      have begun : Tracks (Observed.mk pool fun _ => none).pool contents (Observed.mk pool fun _ => none).kept := tracks
      obtain ⟨known, tracked⟩ := run_tracks calls begun
      rw [run_append, Observed.call] at allocated unknown
      rcases call_tracks tracked call with ⟨answer, later, -, done, -, none⟩ | ⟨e, later, -, failed, -, spares⟩
      · rw [show call.step.perform (Observed.run pool calls).pool = _ from done] at allocated unknown
        obtain ⟨allocated, unknown⟩ := none id allocated unknown
        exact longer (ih allocated unknown)
      · rw [show call.step.perform (Observed.run pool calls).pool = _ from failed] at allocated unknown
        rcases spared_unknown unknown with before | lost
        · exact longer (ih (spares.next ▸ allocated) before)
        · exact ⟨calls, call, [], e, rfl, congrArg Prod.fst failed, lost⟩

theorem failed_call_loses_at_most_victim {store : σ} {capacity pageSize : Nat} {e : EngineError}
    (honest : Honest pageSize store noContents) (calls : List PageCall) (call : PageCall)
    (failed : (call.step.perform (Observed.run (make store capacity pageSize) calls).pool).1 = .error e) :
    let before := Observed.run (make store capacity pageSize) calls
    let after := before.call call
    let lost? := call.loses? before.pool
    (∀ id < before.pool.next, before.kept id = none → LostBy (make store capacity pageSize) calls id) ∧
    (∀ id, lost? ≠ some id → after.kept id = before.kept id) ∧
    (∀ (more : List PageCall) id page found, let later := more.foldl Observed.call after
      later.kept id = some page → ((fetch id).perform later.pool).1 = .ok found → found = page) ∧
    Spares before.pool after.pool lost? := by
  intro before after lost?
  have made := make_tracks store capacity pageSize honest
  have begun : Tracks (Observed.mk (make store capacity pageSize) fun _ => none).pool noContents
    (Observed.mk (make store capacity pageSize) fun _ => none).kept := made
  obtain ⟨known, tracks⟩ := run_tracks calls begun
  obtain ⟨learned, tracked⟩ := observed_tracks tracks call
  obtain ⟨kept, spares⟩ := failed_call_spares tracks failed
  refine ⟨kept_unless_lost rfl made calls, ?_, ?_, spares⟩
  · intro id other
    rw [show after.kept = _ from kept]
    exact spared_other other
  · intro more id page found
    obtain ⟨_, reached⟩ := run_tracks more tracked
    exact fetched_as_kept reached id page found

-- The first page takes two entries where one fits, and is the next to leave memory.
def overfilled : List PageCall :=
  [.newPage 0, .change 0 fun page => { page with entries := [⟨1, 1⟩] },
    .change 0 fun page => { page with entries := page.entries ++ [⟨2, 2⟩] }, .newPage 0, .fetch 1]

theorem overfilled_loses_one :
    let before := Observed.run (make PageStore.inMemory 2 24) overfilled
    let after := before.call (.newPage 0)
    (∃ e, ((PageCall.newPage 0).step.perform before.pool).1 = .error e) ∧
      (PageCall.newPage 0).loses? before.pool = some 0 ∧ after.pool.frames.get? 0 = none ∧
      after.kept 1 = some ⟨1, 0, []⟩ := by
  have refused : ∃ e, ((PageCall.newPage 0).step.perform
      (Observed.run (make PageStore.inMemory 2 24) overfilled).pool).1 = .error e := ⟨_, rfl⟩
  obtain ⟨e, failed⟩ := refused
  obtain ⟨-, kept, -, spares⟩ := failed_call_loses_at_most_victim
    (PageStore.every_store_honest 24 PageStore.inMemory) overfilled (.newPage 0) failed
  obtain ⟨_, _, -, -, -, gone⟩ := spares.gone 0 rfl
  exact ⟨⟨e, failed⟩, rfl, gone, (kept 1 (by decide)).trans rfl⟩

-- The page was written out with one entry and is read back with it, after the second was pushed.
theorem stale_page_found :
    ¬ ∀ (store : PageStore) (capacity pageSize : Nat) (calls : List PageCall) (call : PageCall) (e : EngineError),
      let before := Observed.run (make store capacity pageSize) calls
      (call.step.perform before.pool).1 = .error e → ∀ id page found, before.kept id = some page →
        ((fetch id).perform (before.call call).pool).1 = .ok found → found = page := by
  intro still
  have same := still PageStore.inMemory 2 24
    [.newPage 0, .change 0 fun page => { page with entries := [⟨1, 1⟩] }, .newPage 0, .newPage 0,
      .change 0 fun page => { page with entries := page.entries ++ [⟨2, 2⟩] }, .fetch 2]
    (.newPage 0) _ rfl 0 _ _ rfl rfl
  exact absurd same (by decide)

end Calls

end ShardQuery.BufferPool
