import ShardQuery.Proofs.Index.Losses
import ShardQuery.Proofs.Index.Residents
import ShardQuery.Proofs.Index.Traffic
/-!
Which pages a buffer pool keeps in memory, and what it exchanges with its medium. Main statement: the pages in memory
are those used most recently, a larger pool has no less of them and misses no more, and a page is written out exactly
if it leaves memory after it was allocated or written since it was last loaded.
-/

set_option autoImplicit false

namespace ShardQuery.BufferPool

open PageMedium PageUse

variable {σ : Type} [PageMedium σ]

-- How a load that finds its page ends.
inductive LoadFinds (pool : BufferPool σ) (id : PageId) : Frame → BufferPool σ → Prop
  | hit {frame} (held : pool.frames.get? id = some frame) :
      LoadFinds pool id { frame with lastUsed := pool.clock + 1 } { pool with
        stats := { pool.stats with hits := pool.stats.hits + 1 }
        clock := pool.clock + 1
        frames := pool.frames.insert id { frame with lastUsed := pool.clock + 1 } }
  | missed {roomy page} (missing : pool.frames.get? id = none) (ends : RoomEnds pool.missed (.ok ()) roomy)
      (done : Use.Done roomy.store (.read id)) :
      LoadFinds pool id ⟨page, false, roomy.clock + 1⟩ { roomy with
        store := (Use.read id).on roomy.store
        clock := roomy.clock + 1
        frames := roomy.frames.insert id ⟨page, false, roomy.clock + 1⟩ }

section Calls

variable {pool : BufferPool σ}

theorem load_finds (roomy : 0 < pool.capacity) (bounded : pool.resident ≤ pool.capacity) {id : PageId} {frame : Frame}
    {later : BufferPool σ} (done : (load id).perform pool = (.ok frame, later)) :
    id.toNat < pool.next.toNat ∧ LoadFinds pool id frame later := by
  by_cases above : pool.next ≤ id
  · rw [perform_load_above above] at done
    cases done
  · refine ⟨UInt32.lt_iff_toNat_lt.mp (UInt32.not_le.mp above), ?_⟩
    cases held : pool.frames.get? id with
    | some there =>
        rw [perform_load_resident pool id there above held] at done
        cases done
        exact .hit held
    | none =>
        have begun : 0 < pool.missed.capacity := roomy
        obtain ⟨outcome, made, performed, ends⟩ := room_ends begun bounded
        rw [perform_load_missed pool id above held, performed] at done
        cases outcome with
        | error e => cases done
        | ok _ =>
            dsimp only at done
            split at done
            · cases done
            · rename_i bytes store read
              split at done
              · cases done
              · cases done
                have same : store = (Use.read id).on made.store := congrArg Prod.snd read.symm
                subst same
                exact .missed held ends ⟨bytes, congrArg Prod.fst read⟩

end Calls

def PageCall.on (pool : BufferPool σ) (call : PageCall) : BufferPool σ := (call.step.perform pool).2

-- The page that a call uses, after other uses since the pages were last forgotten.
def PageCall.use? (earlier : List PageUse) : PageCall → Option PageUse
  | .newPage _ => some ⟨.ofNat (allocations earlier), .allocated⟩
  | .fetch id => some ⟨id, .read⟩
  | .change id _ => some ⟨id, .written⟩
  | .clear => none

def PageCall.note (earlier : List PageUse) (call : PageCall) : List PageUse :=
  match call.use? earlier with
  | some use => earlier ++ [use]
  | none => []

-- The number of pages that a call has to load.
def PageCall.loads (capacity : Nat) (earlier : List PageUse) (call : PageCall) : Nat :=
  match call.use? earlier with
  | some use => if Loads capacity earlier use then 1 else 0
  | none => 0

theorem PageCall.loads_antitone {capacity larger : Nat} (more : capacity ≤ larger) (earlier : List PageUse)
    (call : PageCall) : call.loads larger earlier ≤ call.loads capacity earlier := by
  unfold PageCall.loads
  split
  · rename_i use _
    by_cases loads : Loads larger earlier use
    · have here : Loads capacity earlier use := ⟨loads.1, fun member => loads.2 (recent_subset more earlier member)⟩
      rw [if_pos loads, if_pos here]
    · rw [if_neg loads]
      exact Nat.zero_le _
  · exact Nat.le_refl _

-- The call gives an answer. An allocation gives none if it runs over the counter of the pages, which has 32 bits.
def PageCall.Answered (pool : BufferPool σ) (call : PageCall) : Prop :=
  (∃ answer, (call.step.perform pool).1 = .ok answer) ∧ ∀ depth, call = .newPage depth → pool.next.toNat + 1 < 2 ^ 32

def AllAnswered (pool : BufferPool σ) : List PageCall → Prop
  | [] => True
  | call :: rest => call.Answered pool ∧ AllAnswered (call.on pool) rest

-- How a call that uses a page ends.
inductive UseEnds (pool : BufferPool σ) (use : PageUse) (later : BufferPool σ) : Prop
  | allocated {roomy} (manner : use.manner = .allocated) (number : use.page = pool.next)
      (small : pool.next.toNat + 1 < 2 ^ 32) (ends : RoomEnds pool (.ok ()) roomy)
      (touched : Touched roomy later use.page True) (traffic : Traffic roomy later [])
      (next : later.next = roomy.next + 1)
  | hit {frame} (manner : use.manner ≠ .allocated) (below : use.page.toNat < pool.next.toNat)
      (held : pool.frames.get? use.page = some frame)
      (touched : Touched pool later use.page (frame.dirty = true ∨ use.manner = .written))
      (traffic : Traffic pool later []) (next : later.next = pool.next)
  | missed {roomy} (manner : use.manner ≠ .allocated) (below : use.page.toNat < pool.next.toNat)
      (missing : pool.frames.get? use.page = none) (ends : RoomEnds pool.missed (.ok ()) roomy)
      (read : Use.Done roomy.store (.read use.page)) (touched : Touched roomy later use.page (use.manner = .written))
      (store : later.store = (Use.read use.page).on roomy.store) (misses : later.stats.misses = roomy.stats.misses)
      (writeBacks : later.stats.writeBacks = roomy.stats.writeBacks) (next : later.next = roomy.next)

section Ends

variable {pool later : BufferPool σ} {uses : List PageUse} {use : PageUse}

theorem found_stamp {id : PageId} {frame : Frame} (finds : LoadFinds pool id frame later) :
    frame.lastUsed = later.clock := by
  cases finds with
  | hit | missed => rfl

theorem found_read {id : PageId} {frame : Frame} (below : id.toNat < pool.next.toNat)
    (finds : LoadFinds pool id frame later) : UseEnds pool ⟨id, .read⟩ later := by
  cases finds with
  | hit held => exact .hit nofun below held (placed_touched rfl (by simp) rfl rfl rfl) ⟨.none _, rfl, rfl⟩ rfl
  | missed missing ends done =>
      exact .missed nofun below missing ends done (placed_touched rfl (by simp) rfl rfl rfl) rfl rfl rfl rfl

theorem found_written {id : PageId} {page : BucketPage} (ends : UseEnds pool ⟨id, .read⟩ later) :
    UseEnds pool ⟨id, .written⟩ { later with frames := later.frames.insert id ⟨page, true, later.clock⟩ } := by
  cases ends with
  | allocated manner => cases manner
  | hit manner below held touched traffic next =>
      exact .hit nofun below held (placed_again touched page (.inr rfl))
        ⟨traffic.served, traffic.misses, traffic.writeBacks⟩ next
  | missed manner below missing ends read touched store misses writeBacks next =>
      exact .missed nofun below missing ends read (placed_again touched page rfl) store misses writeBacks next

theorem call_ends (roomy : 0 < pool.capacity) (bounded : pool.resident ≤ pool.capacity)
    (counted : pool.next.toNat = allocations uses) {call : PageCall} (used : call.use? uses = some use)
    (answered : call.Answered pool) : UseEnds pool use (call.on pool) := by
  obtain ⟨⟨answer, done⟩, small⟩ := answered
  have performed : call.step.perform pool = (.ok answer, call.on pool) := Prod.ext done rfl
  generalize call.on pool = later at performed
  cases call with
  | newPage depth =>
      cases used
      obtain ⟨id, left, created, ended⟩ := Step.perform_of_bind performed
      cases ended
      obtain ⟨_, made, evicted, -⟩ := Step.perform_of_bind created
      obtain ⟨_, _, ended, ends⟩ := room_ends roomy bounded
      cases ended.symm.trans evicted
      rw [perform_new_page pool made depth evicted] at created
      cases created
      have same : made.next = pool.next := (room_spares ends).next
      have number : UInt32.ofNat (allocations uses) = made.next := by rw [same, ← counted, UInt32.ofNat_toNat]
      rw [number]
      exact .allocated rfl same (small depth rfl) ends (placed_touched rfl (by simp) rfl rfl rfl) ⟨.none _, rfl, rfl⟩ rfl
  | fetch id =>
      cases used
      obtain ⟨page, left, fetched, ended⟩ := Step.perform_of_bind performed
      cases ended
      obtain ⟨frame, left, loaded, ended⟩ := Step.perform_of_bind fetched
      cases ended
      obtain ⟨below, finds⟩ := load_finds roomy bounded loaded
      exact found_read below finds
  | change id edit =>
      cases used
      obtain ⟨page, left, changed, ended⟩ := Step.perform_of_bind performed
      cases ended
      obtain ⟨frame, left, loaded, ended⟩ := Step.perform_of_bind changed
      cases ended
      obtain ⟨below, finds⟩ := load_finds roomy bounded loaded
      rw [found_stamp finds]
      exact found_written (found_read below finds)
  | clear => cases used

end Ends

-- What one use makes a pool exchange with its medium: the page that it loads, and the one that it takes out unsaved.
structure Exchanges (capacity : Nat) (uses : List PageUse) (use : PageUse) (traffic : List Use) : Prop where
  reads : traffic.filter Use.isRead = if Loads capacity uses use then [.read use.page] else []
  writes : ∀ id, (∃ bytes, Use.write id bytes ∈ traffic) ↔
    id ∈ recent capacity uses ∧ id ∉ recent capacity (uses ++ [use]) ∧ Unsaved capacity uses id

section Uses

variable {pool later roomy : BufferPool σ} {uses : List PageUse} {use : PageUse}

theorem room_capacity {outcome : Outcome Unit} (ends : RoomEnds pool outcome roomy) :
    roomy.capacity = pool.capacity := by
  cases ends with
  | enough | dropped | written | unfit | refused => rfl

-- Where there is no room for a page, the one used least recently leaves, and is written out if it is unsaved.
theorem room_exchanges (mirrors : Mirrors pool uses) {id : PageId} (absent : id ∉ recent pool.capacity uses)
    (ends : RoomEnds pool (.ok ()) roomy) :
    ∃ traffic, Traffic pool roomy traffic ∧ Ordered roomy (staying pool.capacity uses id) ∧
      (∀ other frame, roomy.frames.get? other = some frame → pool.frames.get? other = some frame) ∧
      traffic.filter Use.isRead = [] ∧
      ∀ other, (∃ bytes, Use.write other bytes ∈ traffic) ↔ other ∈ recent pool.capacity uses ∧
        other ∉ staying pool.capacity uses id ∧ Unsaved pool.capacity uses other := by
  cases ends with
  | enough room =>
      have all : staying pool.capacity uses id = recent pool.capacity uses :=
        if_pos (.inr (ordered_resident mirrors.ordered ▸ room))
      rw [all]
      refine ⟨[], no_traffic pool, mirrors.ordered, fun _ _ held => held, rfl, fun other => ?_⟩
      exact iff_of_false nofun fun ⟨member, gone, _⟩ => gone member
  | @dropped victim frame full chosen clean =>
      obtain ⟨ordered, leaves⟩ := victim_leaves mirrors absent full chosen
      refine ⟨[], ⟨.none _, rfl, rfl⟩, ordered, fun _ _ held => (dropped_held.mp held).2, rfl, fun other => ?_⟩
      refine iff_of_false nofun fun ⟨member, gone, unsaved⟩ => ?_
      obtain rfl := (leaves other).mp ⟨member, gone⟩
      have dirty := (mirrors.dirty _ frame (victim_resident pool _ frame chosen)).mpr unsaved
      exact absurd (clean.symm.trans dirty) Bool.false_ne_true
  | @written victim frame bytes full chosen dirty encoded accepted =>
      obtain ⟨ordered, leaves⟩ := victim_leaves mirrors absent full chosen
      refine ⟨[.write victim bytes], ⟨.next accepted (.none _), rfl, rfl⟩,
        ⟨ordered.members, ordered.ascending, ordered.past⟩, fun _ _ held => (dropped_held.mp held).2, rfl,
        fun other => ?_⟩
      constructor
      · rintro ⟨_, member⟩
        obtain ⟨rfl, -⟩ := Use.write.inj (List.mem_singleton.mp member)
        obtain ⟨member, gone⟩ := (leaves other).mpr rfl
        exact ⟨member, gone, (mirrors.dirty other frame (victim_resident pool other frame chosen)).mp dirty⟩
      · rintro ⟨member, gone, -⟩
        obtain rfl := (leaves other).mp ⟨member, gone⟩
        exact ⟨bytes, List.mem_singleton.mpr rfl⟩

-- A page that is not there is used when others have made room for it.
theorem absent_mirrors (positive : 0 < pool.capacity) (mirrors : Mirrors pool uses) {changed : Prop}
    (absent : use.page ∉ recent pool.capacity uses) (ends : RoomEnds pool (.ok ()) roomy)
    (touched : Touched roomy later use.page changed) (counted : later.next.toNat = allocations (uses ++ [use]))
    (numbered : ∀ id, id ∈ distinct (uses ++ [use]) ↔ id.toNat < allocations (uses ++ [use]))
    (unsaved : changed ↔ Unsaved pool.capacity (uses ++ [use]) use.page) :
    ∃ traffic, Traffic pool roomy traffic ∧ traffic.filter Use.isRead = [] ∧
      (∀ id, (∃ bytes, Use.write id bytes ∈ traffic) ↔ id ∈ recent pool.capacity uses ∧
        id ∉ recent pool.capacity (uses ++ [use]) ∧ Unsaved pool.capacity uses id) ∧
      Mirrors later (uses ++ [use]) ∧ later.capacity = pool.capacity := by
  obtain ⟨traffic, exchanged, ordered, stays, reads, writes⟩ := room_exchanges mirrors absent ends
  have capacity := room_capacity ends
  have left := touched_mirrors positive mirrors ordered capacity stays touched counted numbered unsaved
  refine ⟨traffic, exchanged, reads, fun id => (writes id).trans ?_, left, touched.capacity.trans capacity⟩
  refine and_congr_right fun member => and_congr_left' (not_congr ?_)
  have other : id ≠ use.page := fun named => absent (named ▸ member)
  exact ((mem_recent_append positive).trans (or_iff_left other)).symm

theorem use_mirrors (positive : 0 < pool.capacity) (mirrors : Mirrors pool uses) (ends : UseEnds pool use later) :
    ∃ traffic, Traffic pool later traffic ∧ Exchanges pool.capacity uses use traffic ∧
      Mirrors later (uses ++ [use]) ∧ later.capacity = pool.capacity := by
  cases ends with
  | @allocated roomy manner number small ends touched traffic next =>
      obtain ⟨more, numbered⟩ := numbered_next mirrors manner number
      have unused : use.page ∉ recent pool.capacity uses := by
        intro member
        have below := (mirrors.numbered _).mp ((recent_suffix _ _).subset member)
        rw [number, mirrors.counted] at below
        exact Nat.lt_irrefl _ below
      have counted : later.next.toNat = allocations (uses ++ [use]) := by
        rw [next, (room_spares ends).next, UInt32.toNat_add, more, ← mirrors.counted]
        exact Nat.mod_eq_of_lt small
      obtain ⟨evicted, exchanged, reads, writes, left⟩ := absent_mirrors positive mirrors unused ends touched counted
        numbered (iff_of_true trivial (unsaved_append.mpr (.inl ⟨rfl, by simp [manner]⟩)))
      have loaded : ¬Loads pool.capacity uses use := fun loads => loads.1 manner
      refine ⟨evicted ++ [], traffic_append exchanged traffic, ?_, left⟩
      rw [List.append_nil]
      exact ⟨by rw [reads, if_neg loaded], writes⟩
  | @hit frame manner below held touched traffic next =>
      obtain ⟨same, numbered⟩ := numbered_known mirrors manner below
      have there : use.page ∈ recent pool.capacity uses := (mirrors.ordered.members _).mpr ⟨frame, held⟩
      have loaded : ¬Loads pool.capacity uses use := fun loads => loads.2 there
      have all : staying pool.capacity uses use.page = recent pool.capacity uses := if_pos (.inl there)
      have unsaved : frame.dirty = true ∨ use.manner = .written ↔ Unsaved pool.capacity (uses ++ [use]) use.page := by
        rw [unsaved_use manner, mirrors.dirty _ frame held, and_iff_left loaded, or_comm]
      have left := touched_mirrors positive mirrors (all ▸ mirrors.ordered) rfl (fun _ _ held => held) touched
        (next ▸ same ▸ mirrors.counted) numbered unsaved
      refine ⟨[], traffic, ⟨by rw [if_neg loaded]; rfl, fun id => iff_of_false nofun ?_⟩, left, touched.capacity⟩
      rintro ⟨member, gone, -⟩
      exact gone ((mem_recent_append positive).mpr (.inl (all ▸ member)))
  | @missed roomy manner below missing ends read touched store misses writeBacks next =>
      obtain ⟨same, numbered⟩ := numbered_known mirrors manner below
      have absent : use.page ∉ recent pool.capacity uses := by
        intro member
        obtain ⟨frame, held⟩ := (mirrors.ordered.members _).mp member
        exact Option.some_ne_none frame (held.symm.trans missing)
      have loads : Loads pool.capacity uses use := ⟨manner, absent⟩
      have unsaved : use.manner = .written ↔ Unsaved pool.capacity (uses ++ [use]) use.page := by
        rw [unsaved_use manner, or_iff_left fun both => both.2 loads]
      have counted : later.next.toNat = allocations (uses ++ [use]) := by
        rw [next, (room_spares ends).next, same]
        exact mirrors.counted
      have begun := missed_mirrors mirrors
      have roomy : 0 < pool.missed.capacity := positive
      obtain ⟨evicted, exchanged, reads, writes, left⟩ := absent_mirrors roomy begun absent ends touched counted
        numbered unsaved
      have served : Served pool.store (evicted ++ [.read use.page]) later.store :=
        store ▸ served_append exchanged.served (.next read (.none _))
      refine ⟨evicted ++ [.read use.page], ⟨served, ?_, ?_⟩, ⟨?_, fun id => ?_⟩, left⟩
      · rw [misses, exchanged.misses, List.countP_append, missed]
        exact Nat.add_right_comm _ _ _
      · rw [writeBacks, exchanged.writeBacks, List.countP_append]
        rfl
      · rw [List.filter_append, reads, if_pos loads]
        rfl
      · refine Iff.trans ?_ (writes id)
        simp

end Uses

section Runs

variable {pool : BufferPool σ} {uses : List PageUse}

theorem call_mirrors (positive : 0 < pool.capacity) (mirrors : Mirrors pool uses) {call : PageCall}
    (answered : call.Answered pool) :
    ∃ traffic, Traffic pool (call.on pool) traffic ∧ Mirrors (call.on pool) (call.note uses) ∧
      (call.on pool).capacity = pool.capacity ∧ traffic.countP Use.isRead = call.loads pool.capacity uses ∧
      ∀ use, call.use? uses = some use → Exchanges pool.capacity uses use traffic := by
  cases used : call.use? uses with
  | some use =>
      have ends := call_ends positive (mirrors_bounded mirrors) mirrors.counted used answered
      obtain ⟨traffic, exchanged, exchanges, left, capacity⟩ := use_mirrors positive mirrors ends
      refine ⟨traffic, exchanged, ?_, capacity, ?_, fun _ same => Option.some.inj same ▸ exchanges⟩
      · rw [PageCall.note, used]
        exact left
      · rw [List.countP_eq_length_filter, exchanges.reads, PageCall.loads, used]
        dsimp only
        split <;> rfl
  | none =>
      cases call with
      | clear => exact ⟨[], ⟨.none _, rfl, rfl⟩, clear_mirrors pool, rfl, rfl, nofun⟩
      | newPage | fetch | change => cases used

theorem run_mirrors {calls : List PageCall} (positive : 0 < pool.capacity) (mirrors : Mirrors pool uses)
    (answered : AllAnswered pool calls) :
    ∃ traffic, Traffic pool (calls.foldl PageCall.on pool) traffic ∧
      Mirrors (calls.foldl PageCall.on pool) (calls.foldl PageCall.note uses) ∧
      (calls.foldl PageCall.on pool).capacity = pool.capacity := by
  induction calls generalizing pool uses with
  | nil => exact ⟨[], no_traffic pool, mirrors, rfl⟩
  | cons call calls ih =>
      obtain ⟨traffic, exchanged, left, capacity, -⟩ := call_mirrors positive mirrors answered.1
      obtain ⟨more, exchanged', left', capacity'⟩ := ih (capacity ▸ positive) left answered.2
      exact ⟨traffic ++ more, traffic_append exchanged exchanged', left', capacity'.trans capacity⟩

-- Two pools in step, the second of which has the more room.
theorem fewer_misses {τ : Type} [PageMedium τ] {other : BufferPool τ} {calls : List PageCall}
    (positive : 0 < pool.capacity) (larger : pool.capacity ≤ other.capacity) (mirrors : Mirrors pool uses)
    (mirrors' : Mirrors other uses) (answered : AllAnswered pool calls) (answered' : AllAnswered other calls) :
    (calls.foldl PageCall.on other).stats.misses + pool.stats.misses ≤
      (calls.foldl PageCall.on pool).stats.misses + other.stats.misses := by
  induction calls generalizing pool other uses with
  | nil => exact Nat.le_of_eq (Nat.add_comm _ _)
  | cons call calls ih =>
      have positive' := Nat.lt_of_lt_of_le positive larger
      obtain ⟨traffic, exchanged, left, capacity, reads, -⟩ := call_mirrors positive mirrors answered.1
      obtain ⟨traffic', exchanged', left', capacity', reads', -⟩ := call_mirrors positive' mirrors' answered'.1
      have rest := ih (capacity ▸ positive) (capacity ▸ capacity' ▸ larger) left left' answered.2 answered'.2
      rw [exchanged.misses, exchanged'.misses, reads, reads'] at rest
      have fewer := PageCall.loads_antitone larger uses call
      rw [List.foldl_cons, List.foldl_cons]
      omega

omit [PageMedium σ] in
theorem exchanged_reads {capacity : Nat} {use : PageUse} {traffic : List Use}
    (exchanges : Exchanges capacity uses use traffic) {id : PageId} :
    Use.read id ∈ traffic ↔ id = use.page ∧ Loads capacity uses use := by
  have filtered : Use.read id ∈ traffic ↔ Use.read id ∈ traffic.filter Use.isRead :=
    ⟨fun member => List.mem_filter.mpr ⟨member, rfl⟩, fun member => (List.mem_filter.mp member).1⟩
  rw [filtered, exchanges.reads]
  split
  · rename_i loads
    simp [loads]
  · rename_i stays
    simp [stays]

theorem recently_used_resident {pool : BufferPool σ} {calls : List PageCall} (roomy : 2 ≤ pool.capacity)
    (answered : AllAnswered pool.clear calls) :
    let later := calls.foldl PageCall.on pool.clear
    let uses := calls.foldl PageCall.note []
    (later.frames.keys.Perm (recent pool.capacity uses) ∧ later.resident = min pool.capacity (allocations uses)) ∧
    (∀ {τ : Type} [PageMedium τ] (other : BufferPool τ), pool.capacity ≤ other.capacity →
      AllAnswered other.clear calls → let larger := calls.foldl PageCall.on other.clear
      (∀ id, later.frames.contains id = true → larger.frames.contains id = true) ∧
        larger.stats.misses + pool.stats.misses ≤ later.stats.misses + other.stats.misses) ∧
    (∃ traffic, Traffic pool later traffic ∧ ∀ reads writes : σ → Nat, Counts reads writes →
      later.stats.misses + reads pool.store = pool.stats.misses + reads later.store ∧
        later.stats.writeBacks + writes pool.store = pool.stats.writeBacks + writes later.store) ∧
    ∀ (call : PageCall) (use : PageUse), call.use? uses = some use → call.Answered later →
      ∃ traffic, Traffic later (call.on later) traffic ∧ ∀ id,
        (Use.read id ∈ traffic ↔ id = use.page ∧ use.manner ≠ .allocated ∧ later.frames.contains id = false) ∧
        ((∃ bytes, Use.write id bytes ∈ traffic) ↔ later.frames.contains id = true ∧
          (call.on later).frames.contains id = false ∧ Unsaved pool.capacity uses id) := by
  intro later uses
  have positive : 0 < pool.clear.capacity := Nat.lt_of_lt_of_le Nat.two_pos roomy
  obtain ⟨traffic, exchanged, mirrors, capacity⟩ := run_mirrors positive (clear_mirrors pool) answered
  have held (id : PageId) : later.frames.contains id = true ↔ id ∈ recent pool.capacity uses :=
    capacity ▸ mirrors_contains mirrors id
  refine ⟨⟨capacity ▸ ordered_keys mirrors.ordered, capacity ▸ mirrors_resident mirrors⟩, ?_, ⟨traffic, ?_, ?_⟩, ?_⟩
  · intro τ _ other more answered' larger
    have positive' : 0 < other.clear.capacity := Nat.lt_of_lt_of_le positive more
    obtain ⟨-, -, mirrors', capacity'⟩ := run_mirrors positive' (clear_mirrors other) answered'
    refine ⟨fun id there => ?_, fewer_misses positive more (clear_mirrors pool) (clear_mirrors other) answered answered'⟩
    rw [mirrors_contains mirrors', capacity']
    exact recent_subset more uses ((held id).mp there)
  · exact ⟨exchanged.served, exchanged.misses, exchanged.writeBacks⟩
  · intro reads writes counts
    have counted : reads later.store = reads pool.store + _ ∧ writes later.store = writes pool.store + _ :=
      counted_served counts exchanged.served
    have misses : later.stats.misses = pool.stats.misses + _ := exchanged.misses
    have writeBacks : later.stats.writeBacks = pool.stats.writeBacks + _ := exchanged.writeBacks
    omega
  · intro call use used answered'
    obtain ⟨moved, exchanged', mirrors', capacity', -, exchanges⟩ :=
      call_mirrors (capacity ▸ positive) mirrors answered'
    have here : Exchanges pool.capacity uses use moved := capacity ▸ exchanges use used
    have noted : call.note uses = uses ++ [use] := by rw [PageCall.note, used]
    have held' (id : PageId) :
        (call.on later).frames.contains id = true ↔ id ∈ recent pool.capacity (uses ++ [use]) := by
      rw [mirrors_contains mirrors', capacity', capacity, ← noted]
      rfl
    refine ⟨moved, exchanged', fun id => ⟨?_, ?_⟩⟩
    · rw [exchanged_reads here, ← Bool.not_eq_true, held]
      refine and_congr_right ?_
      rintro rfl
      exact Iff.rfl
    · rw [here.writes, held, ← Bool.not_eq_true, held']

end Runs

-- Three pages, each of which is written out once and read again.
def rotated : List PageCall := [.newPage 0, .newPage 0, .newPage 0, .fetch 0, .fetch 1, .fetch 2]

theorem rotated_answered (capacity : Nat) (few : capacity = 2 ∨ capacity = 3) :
    AllAnswered (make PageStore.inMemory capacity 24) rotated := by
  rcases few with rfl | rfl
  · exact ⟨⟨⟨_, rfl⟩, fun _ _ => by decide⟩, ⟨⟨_, rfl⟩, fun _ _ => by decide⟩, ⟨⟨_, rfl⟩, fun _ _ => by decide⟩,
      ⟨⟨_, rfl⟩, nofun⟩, ⟨⟨_, rfl⟩, nofun⟩, ⟨⟨_, rfl⟩, nofun⟩, trivial⟩
  · exact ⟨⟨⟨_, rfl⟩, fun _ _ => by decide⟩, ⟨⟨_, rfl⟩, fun _ _ => by decide⟩, ⟨⟨_, rfl⟩, fun _ _ => by decide⟩,
      ⟨⟨_, rfl⟩, nofun⟩, ⟨⟨_, rfl⟩, nofun⟩, ⟨⟨_, rfl⟩, nofun⟩, trivial⟩

-- The page that leaves last was read and not changed since, so it leaves unwritten.
theorem rotated_pages_replaced :
    let later := rotated.foldl PageCall.on (make PageStore.inMemory 2 24)
    let larger := rotated.foldl PageCall.on (make PageStore.inMemory 3 24)
    later.frames.keys.Perm [1, 2] ∧ later.resident = 2 ∧ larger.frames.contains 1 = true ∧
      larger.stats.misses ≤ later.stats.misses ∧ later.stats.misses = later.store.readCount ∧
      later.stats.writeBacks = later.store.writeCount ∧
      ∃ traffic, Traffic later ((PageCall.fetch 0).on later) traffic ∧ Use.read 0 ∈ traffic ∧
        ∀ bytes, Use.write 1 bytes ∉ traffic := by
  intro later larger
  have roomy : 2 ≤ (make PageStore.inMemory 2 24).capacity := Nat.le_refl 2
  obtain ⟨⟨keys, resident⟩, compared, ⟨_, -, counted⟩, next⟩ :=
    recently_used_resident roomy (rotated_answered 2 (.inl rfl))
  obtain ⟨kept, fewer⟩ := compared (make PageStore.inMemory 3 24) (by decide) (rotated_answered 3 (.inr rfl))
  obtain ⟨misses, writeBacks⟩ := counted _ _ PageStore.read_write_counts
  obtain ⟨traffic, exchanged, moved⟩ := next (.fetch 0) ⟨0, .read⟩ rfl ⟨⟨_, rfl⟩, nofun⟩
  refine ⟨keys, resident, kept 1 rfl, fewer, misses.trans (Nat.zero_add _), writeBacks.trans (Nat.zero_add _), traffic,
    exchanged, (moved 0).1.mpr ⟨rfl, nofun, rfl⟩, fun bytes member => ?_⟩
  let earlier : List PageUse := [⟨0, .allocated⟩, ⟨1, .allocated⟩, ⟨2, .allocated⟩, ⟨0, .read⟩]
  have unsaved : Unsaved 2 (earlier ++ [⟨1, .read⟩] ++ [⟨2, .read⟩]) 1 := ((moved 1).2.mp ⟨bytes, member⟩).2.2
  rcases unsaved_append.mp unsaved with ⟨named, -⟩ | ⟨before, -⟩
  · cases named
  · rcases unsaved_append.mp before with ⟨-, changed⟩ | ⟨-, unloaded⟩
    · exact changed rfl
    · exact unloaded (by decide)

end ShardQuery.BufferPool
