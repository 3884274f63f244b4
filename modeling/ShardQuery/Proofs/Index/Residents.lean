import ShardQuery.Proofs.Index.Pool
import ShardQuery.Proofs.Index.Recency
/-!
Which pages are in memory. Main statements: the victim is the page used least recently, and when others have made room
for a page that is used, the pages in memory are again those used most recently.
-/

set_option autoImplicit false

namespace ShardQuery.BufferPool

open PageUse

variable {σ : Type}

-- The pages in memory in the order of their stamps, none of which is ahead of the clock.
structure Ordered (pool : BufferPool σ) (order : List PageId) : Prop where
  members : ∀ id, id ∈ order ↔ ∃ frame, pool.frames.get? id = some frame
  ascending : order.Pairwise fun a b => ∀ frame later,
    pool.frames.get? a = some frame → pool.frames.get? b = some later → frame.lastUsed < later.lastUsed
  past : ∀ id frame, pool.frames.get? id = some frame → frame.lastUsed ≤ pool.clock

-- A page is stamped and in memory, and nothing else comes or goes.
structure Touched (before after : BufferPool σ) (id : PageId) (changed : Prop) : Prop where
  frames : ∃ frame, (frame.dirty = true ↔ changed) ∧ frame.lastUsed = after.clock ∧
    ∀ other, after.frames.get? other = if other = id then some frame else before.frames.get? other
  clock : after.clock = before.clock + 1
  capacity : after.capacity = before.capacity

section Order

variable {pool later : BufferPool σ} {order : List PageId}

theorem ordered_nodup (ordered : Ordered pool order) : order.Nodup := by
  refine ordered.ascending.imp_of_mem ?_
  rintro a _ member _ less rfl
  obtain ⟨frame, held⟩ := (ordered.members a).mp member
  exact Nat.lt_irrefl _ (less frame frame held held)

theorem ordered_keys (ordered : Ordered pool order) : pool.frames.keys.Perm order := by
  refine (List.perm_ext_iff_of_nodup pool.frames.keys_nodup (ordered_nodup ordered)).mpr fun id => ?_
  rw [← SortedMap.get?_isSome, Option.isSome_iff_exists, ordered.members]

theorem ordered_resident (ordered : Ordered pool order) : pool.resident = order.length := by
  rw [← (ordered_keys ordered).length_eq, SortedMap.keys, List.length_map, resident, SortedMap.size]

theorem older_least (frames : List (PageId × Frame)) (first : PageId × Frame) :
    ∀ entry ∈ first :: frames, (frames.foldl older first).2.lastUsed ≤ entry.2.lastUsed := by
  induction frames generalizing first with
  | nil => simp
  | cons frame frames ih =>
      have least := ih (older first frame)
      have chosen := least _ List.mem_cons_self
      have both : (older first frame).2.lastUsed ≤ first.2.lastUsed ∧
          (older first frame).2.lastUsed ≤ frame.2.lastUsed := by
        rw [older]
        split <;> omega
      intro entry member
      rw [List.foldl_cons]
      rcases List.mem_cons.mp member with rfl | member
      · exact Nat.le_trans chosen both.1
      · rcases List.mem_cons.mp member with rfl | among
        · exact Nat.le_trans chosen both.2
        · exact least entry (List.mem_cons_of_mem _ among)

theorem victim_least {id : PageId} {frame : Frame} (victim : pool.victim? = some (id, frame)) {other : PageId}
    {held : Frame} (there : pool.frames.get? other = some held) : frame.lastUsed ≤ held.lastUsed := by
  have member := (SortedMap.get?_eq_some _ _ _).mp there
  unfold victim? at victim
  split at victim
  · cases victim
  · rename_i first rest entries
    have least := older_least rest first (other, held) (entries ▸ member)
    rw [Option.some.inj victim] at least
    exact least

theorem victim_first (ordered : Ordered pool order) {id : PageId} {frame : Frame}
    (victim : pool.victim? = some (id, frame)) : order = id :: order.tail := by
  have held := victim_resident pool id frame victim
  have member := (ordered.members id).mpr ⟨frame, held⟩
  cases order with
  | nil => cases member
  | cons first rest =>
      rcases List.mem_cons.mp member with rfl | later
      · rfl
      · obtain ⟨oldest, there⟩ := (ordered.members first).mp List.mem_cons_self
        have before := (List.pairwise_cons.mp ordered.ascending).1 id later oldest frame there held
        exact absurd (victim_least victim there) (Nat.not_le.mpr before)

theorem dropped_ordered {id : PageId} (ordered : Ordered pool (id :: order)) : Ordered (pool.dropped id) order where
  members := by
    intro other
    have first := (List.nodup_cons.mp (ordered_nodup ordered)).1
    simp only [dropped_held]
    constructor
    · intro member
      obtain ⟨frame, held⟩ := (ordered.members other).mp (List.mem_cons_of_mem _ member)
      exact ⟨frame, fun same => first (same ▸ member), held⟩
    · rintro ⟨frame, different, held⟩
      exact (List.mem_cons.mp ((ordered.members other).mpr ⟨frame, held⟩)).resolve_left different
  ascending := (List.pairwise_cons.mp ordered.ascending).2.imp fun less frame later held held' =>
    less frame later (dropped_held.mp held).2 (dropped_held.mp held').2
  past other frame held := ordered.past other frame (dropped_held.mp held).2

theorem touched_ordered {id : PageId} {changed : Prop} (ordered : Ordered pool order)
    (touched : Touched pool later id changed) : Ordered later (order.filter (· != id) ++ [id]) := by
  obtain ⟨frame, -, stamp, frames⟩ := touched.frames
  have here : later.frames.get? id = some frame := (frames id).trans (if_pos rfl)
  have others {other : PageId} (different : other ≠ id) : later.frames.get? other = pool.frames.get? other :=
    (frames other).trans (if_neg different)
  have among {other : PageId} (member : other ∈ order.filter (· != id)) :
      later.frames.get? other = pool.frames.get? other :=
    others (bne_iff_ne.mp (List.mem_filter.mp member).2)
  refine ⟨fun other => ?_, ?_, fun other kept held => ?_⟩
  · by_cases same : other = id
    · simp [same, here]
    · simp [same, others same, ordered.members]
  · refine List.pairwise_append.mpr ⟨?_, List.pairwise_singleton _ _, ?_⟩
    · refine (ordered.ascending.filter _).imp_of_mem fun member member' less kept kept' held held' => ?_
      rw [among member] at held
      rw [among member'] at held'
      exact less kept kept' held held'
    · intro other member last named kept kept' held held'
      rw [among member] at held
      rw [List.mem_singleton.mp named, here] at held'
      rw [← Option.some.inj held', stamp, touched.clock]
      exact Nat.lt_succ_of_le (ordered.past other kept held)
  · by_cases same : other = id
    · rw [same, here] at held
      exact Nat.le_of_eq (Option.some.inj held ▸ stamp)
    · rw [others same] at held
      rw [touched.clock]
      exact Nat.le_succ_of_le (ordered.past other kept held)

theorem placed_touched {id : PageId} {frame : Frame} {changed : Prop}
    (frames : later.frames = pool.frames.insert id frame) (dirty : frame.dirty = true ↔ changed)
    (stamp : frame.lastUsed = later.clock) (clock : later.clock = pool.clock + 1)
    (capacity : later.capacity = pool.capacity) : Touched pool later id changed :=
  ⟨⟨frame, dirty, stamp, fun other => by rw [frames, SortedMap.get?_insert]⟩, clock, capacity⟩

theorem placed_again {id : PageId} {before changed : Prop} (touched : Touched pool later id before) (page : BucketPage)
    (holds : changed) :
    Touched pool { later with frames := later.frames.insert id ⟨page, true, later.clock⟩ } id changed := by
  obtain ⟨frame, -, -, frames⟩ := touched.frames
  refine ⟨⟨⟨page, true, later.clock⟩, by simp [holds], rfl, fun other => ?_⟩, touched.clock, touched.capacity⟩
  rw [SortedMap.get?_insert, frames]
  split <;> rfl

end Order

-- The pages in memory are those used most recently, and the changed ones among them those that are unsaved.
structure Mirrors (pool : BufferPool σ) (uses : List PageUse) : Prop where
  ordered : Ordered pool (recent pool.capacity uses)
  counted : pool.next.toNat = allocations uses
  numbered : ∀ id, id ∈ distinct uses ↔ id.toNat < allocations uses
  dirty : ∀ id frame, pool.frames.get? id = some frame → (frame.dirty = true ↔ Unsaved pool.capacity uses id)

section Mirrored

variable {pool later roomy : BufferPool σ} {uses : List PageUse} {use : PageUse}

theorem mirrors_bounded (mirrors : Mirrors pool uses) : pool.resident ≤ pool.capacity := by
  rw [ordered_resident mirrors.ordered, recent_length]
  exact Nat.min_le_left _ _

theorem mirrors_contains (mirrors : Mirrors pool uses) (id : PageId) :
    pool.frames.contains id = true ↔ id ∈ recent pool.capacity uses := by
  rw [SortedMap.contains, Option.isSome_iff_exists, mirrors.ordered.members]

theorem mirrors_resident (mirrors : Mirrors pool uses) : pool.resident = min pool.capacity (allocations uses) := by
  have small : allocations uses < 2 ^ 32 := mirrors.counted ▸ pool.next.toNat_lt
  rw [ordered_resident mirrors.ordered, recent_length, distinct_length mirrors.numbered small]

theorem clear_mirrors (pool : BufferPool σ) : Mirrors pool.clear [] where
  ordered := ⟨fun id => iff_of_false (by simp [recent, distinct]) (by simp [clear, SortedMap.get?_empty]),
    by simp [recent, distinct], by simp [clear, SortedMap.get?_empty]⟩
  counted := rfl
  numbered := fun id => iff_of_false (by simp [distinct]) (Nat.not_lt_zero _)
  dirty := by simp [clear, SortedMap.get?_empty]

theorem missed_mirrors (mirrors : Mirrors pool uses) : Mirrors pool.missed uses :=
  ⟨⟨mirrors.ordered.members, mirrors.ordered.ascending, mirrors.ordered.past⟩, mirrors.counted, mirrors.numbered,
    mirrors.dirty⟩

-- Of the pages in a full memory, none but the victim leaves for a page that is not there.
theorem victim_leaves (mirrors : Mirrors pool uses) {id victim : PageId} {frame : Frame}
    (absent : id ∉ recent pool.capacity uses) (full : ¬pool.resident < pool.capacity)
    (chosen : pool.victim? = some (victim, frame)) :
    Ordered (pool.dropped victim) (staying pool.capacity uses id) ∧
      ∀ other, other ∈ recent pool.capacity uses ∧ other ∉ staying pool.capacity uses id ↔ other = victim := by
  have ordered := mirrors.ordered
  have first := victim_first ordered chosen
  have rest : staying pool.capacity uses id = (recent pool.capacity uses).tail :=
    if_neg (not_or.mpr ⟨absent, ordered_resident ordered ▸ full⟩)
  rw [rest]
  generalize (recent pool.capacity uses).tail = tail at first
  rw [first] at ordered ⊢
  have once := (List.nodup_cons.mp (ordered_nodup ordered)).1
  refine ⟨dropped_ordered ordered, fun other => ⟨fun ⟨member, gone⟩ => ?_, ?_⟩⟩
  · exact (List.mem_cons.mp member).resolve_right gone
  · rintro rfl
    exact ⟨List.mem_cons_self, once⟩

-- A page is touched after others have made room for it.
theorem touched_mirrors (positive : 0 < pool.capacity) (mirrors : Mirrors pool uses) {changed : Prop}
    (ordered : Ordered roomy (staying pool.capacity uses use.page)) (same : roomy.capacity = pool.capacity)
    (stays : ∀ other frame, roomy.frames.get? other = some frame → pool.frames.get? other = some frame)
    (touched : Touched roomy later use.page changed) (counted : later.next.toNat = allocations (uses ++ [use]))
    (numbered : ∀ id, id ∈ distinct (uses ++ [use]) ↔ id.toNat < allocations (uses ++ [use]))
    (unsaved : changed ↔ Unsaved pool.capacity (uses ++ [use]) use.page) : Mirrors later (uses ++ [use]) where
  ordered := by
    rw [touched.capacity, same, recent_append positive]
    exact touched_ordered ordered touched
  counted := counted
  numbered := numbered
  dirty := by
    intro id frame held
    obtain ⟨here, dirty, -, frames⟩ := touched.frames
    rw [touched.capacity, same]
    rw [frames] at held
    split at held
    · rename_i named
      rw [← Option.some.inj held, dirty, unsaved, named]
    · rename_i other
      rw [mirrors.dirty id frame (stays id frame held), unsaved_append]
      simp [Ne.symm other]

theorem numbered_known (mirrors : Mirrors pool uses) (known : use.manner ≠ .allocated)
    (below : use.page.toNat < pool.next.toNat) :
    allocations (uses ++ [use]) = allocations uses ∧
      ∀ id, id ∈ distinct (uses ++ [use]) ↔ id.toNat < allocations (uses ++ [use]) := by
  have same : allocations (uses ++ [use]) = allocations uses := by rw [allocations_append, if_neg known, Nat.add_zero]
  refine ⟨same, fun id => ?_⟩
  rw [same, mem_distinct_append, mirrors.numbered]
  refine or_iff_left_of_imp ?_
  rintro rfl
  exact mirrors.counted ▸ below

theorem numbered_next (mirrors : Mirrors pool uses) (manner : use.manner = .allocated) (number : use.page = pool.next) :
    allocations (uses ++ [use]) = allocations uses + 1 ∧
      ∀ id, id ∈ distinct (uses ++ [use]) ↔ id.toNat < allocations (uses ++ [use]) := by
  have more : allocations (uses ++ [use]) = allocations uses + 1 := by rw [allocations_append, if_pos manner]
  refine ⟨more, fun id => ?_⟩
  rw [more, mem_distinct_append, mirrors.numbered, number, Nat.lt_succ_iff_lt_or_eq, ← mirrors.counted, UInt32.toNat_inj]

end Mirrored

end ShardQuery.BufferPool
