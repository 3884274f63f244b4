import ShardQuery.Proofs.Index.Honest
import ShardQuery.Proofs.Index.Pool
/-!
How a buffer pool makes room over a medium whose writes may fail. Main statements: at most one page leaves memory, and
it is lost exactly if it has changed and cannot be written out.
-/

set_option autoImplicit false

namespace ShardQuery.BufferPool

open PageMedium

variable {σ : Type} [PageMedium σ]

-- How the attempt to write a page out ends.
def writeOut (pool : BufferPool σ) (id : PageId) (frame : Frame) : Outcome Unit :=
  match frame.page.encode pool.pageSize with
  | .ok bytes => ((PageMedium.write id bytes).perform pool.store).1
  | .error e => .error e

-- The page that has to leave memory for another one, if it has changed and cannot be written out.
def lostForRoom? (pool : BufferPool σ) : Option PageId :=
  if pool.resident < pool.capacity then none
  else
    match pool.victim? with
    | some (id, frame) => if frame.dirty && !(pool.writeOut id frame).isOk then some id else none
    | none => none

variable {pool later : BufferPool σ} {outcome : Outcome Unit}

-- How making room ends: there was room, or one page is out of memory.
inductive RoomEnds (pool : BufferPool σ) : Outcome Unit → BufferPool σ → Prop
  | enough (room : pool.resident < pool.capacity) : RoomEnds pool (.ok ()) pool
  | dropped {id frame} (full : ¬pool.resident < pool.capacity) (victim : pool.victim? = some (id, frame))
      (clean : frame.dirty = false) : RoomEnds pool (.ok ()) (pool.dropped id)
  | written {id frame bytes} (full : ¬pool.resident < pool.capacity) (victim : pool.victim? = some (id, frame))
      (dirty : frame.dirty = true) (encoded : frame.page.encode pool.pageSize = .ok bytes)
      (accepted : ((PageMedium.write id bytes).perform pool.store).1 = .ok ()) :
      RoomEnds pool (.ok ()) { pool.dropped id with
        store := (Use.write id bytes).on pool.store
        stats := { (pool.dropped id).stats with writeBacks := pool.stats.writeBacks + 1 } }
  | unfit {id frame e} (full : ¬pool.resident < pool.capacity) (victim : pool.victim? = some (id, frame))
      (dirty : frame.dirty = true) (refused : frame.page.encode pool.pageSize = .error e) :
      RoomEnds pool (.error e) (pool.dropped id)
  | refused {id frame bytes e} (full : ¬pool.resident < pool.capacity) (victim : pool.victim? = some (id, frame))
      (dirty : frame.dirty = true) (encoded : frame.page.encode pool.pageSize = .ok bytes)
      (failed : ((PageMedium.write id bytes).perform pool.store).1 = .error e) :
      RoomEnds pool (.error e) { pool.dropped id with store := (Use.write id bytes).on pool.store }

theorem evict_ends (full : ¬pool.resident < pool.capacity) (roomy : 0 < pool.capacity) :
    ∃ outcome later, evictOne.perform pool = (outcome, later) ∧ RoomEnds pool outcome later := by
  obtain ⟨id, frame, victim⟩ := victim_exists pool (by omega)
  cases dirty : frame.dirty with
  | false => exact ⟨_, _, perform_evict_clean pool id frame victim dirty, .dropped full victim dirty⟩
  | true =>
      have begun : evictOne.perform pool = (do
          let bytes ← Step.ofOutcome (frame.page.encode pool.pageSize)
          onStore (PageMedium.write id bytes)
          modify fun pool => { pool with stats := { pool.stats with writeBacks := pool.stats.writeBacks + 1 } } :
          Step (BufferPool σ) Unit).perform (pool.dropped id) := by
        simp only [evictOne, Step.perform_bind, Step.perform_get, victim, Step.perform_set, dirty, if_true]
        rfl
      cases encoded : frame.page.encode pool.pageSize with
      | error e =>
          rw [encoded] at begun
          exact ⟨_, _, begun, .unfit full victim dirty encoded⟩
      | ok bytes =>
          cases ended : ((PageMedium.write id bytes).perform pool.store).1 with
          | ok done => exact ⟨_, _, perform_evict_dirty pool id frame bytes _ victim dirty encoded (Prod.ext ended rfl),
              .written full victim dirty encoded ended⟩
          | error e =>
              have failed : (onStore (PageMedium.write id bytes)).perform (pool.dropped id) =
                  (.error e, { pool.dropped id with store := (Use.write id bytes).on pool.store }) := by
                rw [onStore, Step.perform_onPart]
                exact Prod.ext ended rfl
              rw [encoded, Step.perform_bind_ok (Step.perform_ofOutcome _ _), Step.perform_bind_error failed] at begun
              exact ⟨_, _, begun, .refused full victim dirty encoded ended⟩

theorem room_within_enough (bound : Nat) (room : pool.resident < pool.capacity) :
    (makeRoomWithin bound).perform pool = (.ok (), pool) := by
  cases bound with
  | zero => rfl
  | succ bound => exact perform_room_enough pool bound room

theorem evicted_room (ends : RoomEnds pool (.ok ()) later) (bounded : pool.resident ≤ pool.capacity) :
    later.resident < later.capacity := by
  cases ends with
  | enough room => exact room
  | dropped full victim clean =>
      exact Nat.lt_of_lt_of_le (dropped_resident pool _ _ (victim_resident pool _ _ victim)) bounded
  | written full victim dirty encoded accepted =>
      exact Nat.lt_of_lt_of_le (dropped_resident pool _ _ (victim_resident pool _ _ victim)) bounded

theorem room_ends (roomy : 0 < pool.capacity) (bounded : pool.resident ≤ pool.capacity) :
    ∃ outcome later, makeRoom.perform pool = (outcome, later) ∧ RoomEnds pool outcome later := by
  have begun : makeRoom.perform pool = (makeRoomWithin pool.resident).perform pool := rfl
  rw [begun]
  by_cases room : pool.resident < pool.capacity
  · exact ⟨_, _, room_within_enough _ room, .enough room⟩
  · obtain ⟨bound, resident⟩ := Nat.exists_eq_add_of_lt (show 0 < pool.resident by omega)
    rw [resident, Nat.zero_add]
    obtain ⟨outcome, later, evicted, ends⟩ := evict_ends room roomy
    cases outcome with
    | ok done =>
        rw [perform_room_full pool later bound room evicted]
        exact ⟨_, _, room_within_enough bound (evicted_room ends bounded), ends⟩
    | error e =>
        refine ⟨_, _, ?_, ends⟩
        simp only [makeRoomWithin, Step.perform_bind, Step.perform_get, if_neg room, evicted]

-- What a call that fails leaves in memory.
structure Spares (before after : BufferPool σ) (lost? : Option PageId) : Prop where
  next : after.next = before.next
  resident : ∀ id frame, before.frames.get? id = some frame → lost? ≠ some id → after.frames.get? id = some frame ∨
    before.victim? = some (id, frame) ∧ (frame.dirty = true → before.writeOut id frame = .ok ())
  gone : ∀ id, lost? = some id → ∃ frame e, before.frames.get? id = some frame ∧ frame.dirty = true ∧
    before.writeOut id frame = .error e ∧ after.frames.get? id = none

theorem lost_none_of_written {id : PageId} {frame : Frame} (victim : pool.victim? = some (id, frame))
    (safe : frame.dirty = true → pool.writeOut id frame = .ok ()) : pool.lostForRoom? = none := by
  unfold lostForRoom?
  split
  · rfl
  · rw [victim]
    cases dirty : frame.dirty with
    | false => simp [dirty]
    | true => simp [dirty, safe dirty, Except.isOk, Except.toBool]

theorem lost_of_refused {id : PageId} {frame : Frame} {e : EngineError} (full : ¬pool.resident < pool.capacity)
    (victim : pool.victim? = some (id, frame)) (dirty : frame.dirty = true)
    (failed : pool.writeOut id frame = .error e) : pool.lostForRoom? = some id := by
  simp [lostForRoom?, full, victim, dirty, failed, Except.isOk, Except.toBool]

omit [PageMedium σ] in
-- A page that is not the victim stays where it is.
theorem dropped_or_stays {id other : PageId} {frame kept : Frame} (victim : pool.victim? = some (id, frame))
    (held : pool.frames.get? other = some kept) :
    (pool.dropped id).frames.get? other = some kept ∨ other = id ∧ kept = frame := by
  rw [dropped, SortedMap.get?_erase]
  split
  · rename_i same
    exact .inr ⟨same, Option.some.inj (held.symm.trans (same ▸ victim_resident pool id frame victim))⟩
  · exact .inl held

theorem written_spares {id : PageId} {frame : Frame} (victim : pool.victim? = some (id, frame))
    (safe : frame.dirty = true → pool.writeOut id frame = .ok ()) : Spares pool (pool.dropped id) pool.lostForRoom? where
  next := rfl
  resident := by
    intro other kept held _
    rcases dropped_or_stays victim held with still | ⟨rfl, rfl⟩
    · exact .inl still
    · exact .inr ⟨victim, safe⟩
  gone := by
    intro other lost
    rw [lost_none_of_written victim safe] at lost
    cases lost

theorem refused_spares {id : PageId} {frame : Frame} {e : EngineError} (full : ¬pool.resident < pool.capacity)
    (victim : pool.victim? = some (id, frame)) (dirty : frame.dirty = true)
    (failed : pool.writeOut id frame = .error e) : Spares pool (pool.dropped id) pool.lostForRoom? := by
  rw [lost_of_refused full victim dirty failed]
  refine ⟨rfl, fun other kept held spared => ?_, fun other same => ?_⟩
  · rcases dropped_or_stays victim held with still | ⟨rfl, -⟩
    · exact .inl still
    · exact absurd rfl spared
  · have absent : (pool.dropped id).frames.get? id = none := by rw [dropped, SortedMap.get?_erase, if_pos rfl]
    rw [← Option.some.inj same]
    exact ⟨frame, e, victim_resident pool id frame victim, dirty, failed, absent⟩

theorem room_spares (ends : RoomEnds pool outcome later) : Spares pool later pool.lostForRoom? := by
  cases ends with
  | enough room =>
      have none : pool.lostForRoom? = none := if_pos room
      exact ⟨rfl, fun _ _ held _ => .inl held, by simp [none]⟩
  | dropped full victim clean => exact written_spares victim fun dirty => absurd (clean.symm.trans dirty) (by decide)
  | written full victim dirty encoded accepted =>
      have spares := written_spares victim fun _ => by rw [writeOut, encoded]; exact accepted
      exact ⟨spares.next, spares.resident, spares.gone⟩
  | unfit full victim dirty refused => exact refused_spares full victim dirty (by rw [writeOut, refused])
  | refused full victim dirty encoded failed =>
      have spares := refused_spares full victim dirty (by rw [writeOut, encoded]; exact failed)
      exact ⟨spares.next, spares.resident, spares.gone⟩

theorem room_absent (ends : RoomEnds pool outcome later) (id : PageId)
    (missing : pool.frames.get? id = none) : later.frames.get? id = none := by
  cases ends with
  | enough room => exact missing
  | dropped full victim clean => exact (dropped_shrinks pool _).absent id missing
  | written full victim dirty encoded accepted => exact (dropped_shrinks pool _).absent id missing
  | unfit full victim dirty refused => exact (dropped_shrinks pool _).absent id missing
  | refused full victim dirty encoded failed => exact (dropped_shrinks pool _).absent id missing

theorem room_keeps_all (ends : RoomEnds pool (.ok ()) later) : pool.lostForRoom? = none := by
  cases ends with
  | enough room => exact if_pos room
  | dropped full victim clean =>
      exact lost_none_of_written victim fun dirty => absurd (clean.symm.trans dirty) (by decide)
  | written full victim dirty encoded accepted =>
      exact lost_none_of_written victim fun _ => by rw [writeOut, encoded]; exact accepted

end ShardQuery.BufferPool
