import Mathlib.Data.List.DropRight
import ShardQuery.Ids
import ShardQuery.Proofs.Repetition
/-!
Uses of pages in their order. Main statements: what one more use changes about the pages that were used most recently,
and about the pages that were allocated or written since they were last loaded.
-/

set_option autoImplicit false

namespace ShardQuery

section Last

variable {α : Type}

theorem rtake_all {list : List α} {count : Nat} (enough : list.length ≤ count) : list.rtake count = list := by
  rw [List.rtake, Nat.sub_eq_zero_of_le enough, List.drop_zero]

theorem rtake_append_right (before : List α) {after : List α} {count : Nat} (enough : count ≤ after.length) :
    (before ++ after).rtake count = after.rtake count := by
  rw [List.rtake, List.rtake, List.length_append, List.drop_append, List.drop_eq_nil_of_le (by omega), List.nil_append]
  congr 1
  omega

theorem rtake_length (list : List α) (count : Nat) : (list.rtake count).length = min count list.length := by
  rw [List.rtake, List.length_drop]
  omega

variable [DecidableEq α]

theorem filter_absent {list : List α} {a : α} (absent : a ∉ list) : list.filter (· != a) = list :=
  List.filter_eq_self.mpr fun _ member => bne_iff_ne.mpr fun same => absent (same ▸ member)

-- When a member is taken out of a list, the end that is one shorter has lost that member, or else its own first.
theorem rtake_filter {list : List α} (once : list.Nodup) (count : Nat) (a : α) :
    let last := list.rtake (count + 1)
    (list.filter (· != a)).rtake count =
      (if a ∈ last ∨ last.length < count + 1 then last else last.tail).filter (· != a) := by
  intro last
  obtain ⟨before, split⟩ : last <:+ list := List.drop_suffix _ _
  have length : last.length = min (count + 1) list.length := rtake_length list (count + 1)
  by_cases short : last.length < count + 1
  · have whole : last = list := rtake_all (by omega)
    rw [if_pos (.inr short), whole]
    exact rtake_all (Nat.le_trans (List.length_filter_le _ _) (by omega))
  · rw [← split, List.filter_append]
    by_cases there : a ∈ last
    · have shorter : (last.filter (· != a)).length = count := by
        have among : last.Nodup := once.sublist (List.drop_sublist _ _)
        rw [← among.erase_eq_filter, List.length_erase_of_mem there]
        omega
      rw [if_pos (.inl there), rtake_append_right _ (Nat.le_of_eq shorter.symm), rtake_all (Nat.le_of_eq shorter)]
    · rw [if_neg (not_or.mpr ⟨there, short⟩), filter_absent there, filter_absent (fun member => there (List.mem_of_mem_tail member)),
        rtake_append_right _ (by omega), ← List.drop_one, List.rtake]
      congr 1
      omega

end Last

inductive Manner where
  | allocated
  | read
  | written
deriving DecidableEq

structure PageUse where
  page : PageId
  manner : Manner

namespace PageUse

def allocations (uses : List PageUse) : Nat := uses.countP (·.manner = .allocated)

-- The pages in the order of their last uses, since all but the last occurrence of each are left out.
def distinct (uses : List PageUse) : List PageId := (uses.map page).dedup

-- As many of the pages as there is room for, those used most recently.
def recent (capacity : Nat) (uses : List PageUse) : List PageId := (distinct uses).rtake capacity

-- A page that was allocated before and is not among the pages used most recently comes back.
def Loads (capacity : Nat) (earlier : List PageUse) (use : PageUse) : Prop :=
  use.manner ≠ .allocated ∧ use.page ∉ recent capacity earlier

instance (capacity : Nat) (earlier : List PageUse) (use : PageUse) : Decidable (Loads capacity earlier use) :=
  inferInstanceAs (Decidable (_ ∧ _))

-- A page that was allocated or written since it was last loaded.
inductive Unsaved (capacity : Nat) : List PageUse → PageId → Prop
  | used {uses use} (changed : use.manner ≠ .read) : Unsaved capacity (uses ++ [use]) use.page
  | kept {uses use id} (before : Unsaved capacity uses id) (unloaded : ¬(use.page = id ∧ Loads capacity uses use)) :
      Unsaved capacity (uses ++ [use]) id

-- The pages that stay when a page is used: all of them if it is there or there is room, else all but the oldest.
def staying (capacity : Nat) (uses : List PageUse) (id : PageId) : List PageId :=
  if id ∈ recent capacity uses ∨ (recent capacity uses).length < capacity then recent capacity uses
  else (recent capacity uses).tail

section Recent

variable {capacity : Nat} {uses : List PageUse}

theorem distinct_append (uses : List PageUse) (use : PageUse) :
    distinct (uses ++ [use]) = (distinct uses).filter (· != use.page) ++ [use.page] := by
  rw [distinct, List.map_append, List.map_cons, List.map_nil, dedup_append_one, distinct]

theorem mem_distinct_append {uses : List PageUse} {use : PageUse} {id : PageId} :
    id ∈ distinct (uses ++ [use]) ↔ id ∈ distinct uses ∨ id = use.page := by
  simp [distinct]

theorem allocations_append (uses : List PageUse) (use : PageUse) :
    allocations (uses ++ [use]) = allocations uses + if use.manner = .allocated then 1 else 0 := by
  rw [allocations, List.countP_append, List.countP_singleton, ← allocations]
  simp only [decide_eq_true_eq]

theorem recent_suffix (capacity : Nat) (uses : List PageUse) : recent capacity uses <:+ distinct uses :=
  List.drop_suffix _ _

theorem recent_length (capacity : Nat) (uses : List PageUse) :
    (recent capacity uses).length = min capacity (distinct uses).length :=
  rtake_length _ _

-- More room keeps more pages.
theorem recent_subset {capacity larger : Nat} (more : capacity ≤ larger) (uses : List PageUse) :
    recent capacity uses ⊆ recent larger uses :=
  List.Sublist.subset (List.drop_sublist_drop_left _ (by omega))

theorem recent_append (roomy : 0 < capacity) (uses : List PageUse) (use : PageUse) :
    recent capacity (uses ++ [use]) = (staying capacity uses use.page).filter (· != use.page) ++ [use.page] := by
  obtain ⟨less, rfl⟩ := Nat.exists_eq_succ_of_ne_zero roomy.ne'
  have once : (distinct uses).Nodup := List.nodup_dedup _
  rw [recent, distinct_append, List.rtake_concat_succ, rtake_filter once]
  rfl

-- After a use, the pages used most recently are those that stayed and the one that was used.
theorem mem_recent_append (roomy : 0 < capacity) {use : PageUse} {id : PageId} :
    id ∈ recent capacity (uses ++ [use]) ↔ id ∈ staying capacity uses use.page ∨ id = use.page := by
  rw [recent_append roomy, List.mem_append, List.mem_filter, List.mem_singleton, bne_iff_ne]
  tauto

-- The pages are those that were allocated, numbered from 0 on.
theorem distinct_length (numbered : ∀ id, id ∈ distinct uses ↔ id.toNat < allocations uses)
    (small : allocations uses < 2 ^ 32) : (distinct uses).length = allocations uses := by
  have number {n : Nat} (below : n < allocations uses) : (UInt32.ofNat n).toNat = n :=
    UInt32.toNat_ofNat_of_lt' (Nat.lt_trans below small)
  have once : ((List.range (allocations uses)).map UInt32.ofNat).Nodup := by
    refine List.Nodup.map_on (fun m member n member' same => ?_) List.nodup_range
    rw [← number (List.mem_range.mp member), same, number (List.mem_range.mp member')]
  have permuted : (distinct uses).Perm ((List.range (allocations uses)).map UInt32.ofNat) := by
    refine (List.perm_ext_iff_of_nodup (List.nodup_dedup _) once).mpr fun id => (numbered id).trans ?_
    constructor
    · intro below
      exact List.mem_map.mpr ⟨id.toNat, List.mem_range.mpr below, UInt32.ofNat_toNat⟩
    · intro member
      obtain ⟨n, below, rfl⟩ := List.mem_map.mp member
      rw [number (List.mem_range.mp below)]
      exact List.mem_range.mp below
  rw [permuted.length_eq, List.length_map, List.length_range]

end Recent

section Saving

variable {capacity : Nat} {uses : List PageUse} {use : PageUse} {id : PageId}

theorem unsaved_append :
    Unsaved capacity (uses ++ [use]) id ↔
      use.page = id ∧ use.manner ≠ .read ∨ Unsaved capacity uses id ∧ ¬(use.page = id ∧ Loads capacity uses use) := by
  constructor
  · intro unsaved
    generalize split : uses ++ [use] = longer at unsaved
    cases unsaved with
    | used changed =>
        obtain ⟨-, same⟩ := List.append_inj' split rfl
        exact .inl ⟨congrArg page (List.head_eq_of_cons_eq same), List.head_eq_of_cons_eq same ▸ changed⟩
    | kept before unloaded =>
        obtain ⟨rfl, same⟩ := List.append_inj' split rfl
        exact .inr ⟨before, List.head_eq_of_cons_eq same ▸ unloaded⟩
  · rintro (⟨rfl, changed⟩ | ⟨before, unloaded⟩)
    · exact .used changed
    · exact .kept before unloaded

theorem unsaved_use (known : use.manner ≠ .allocated) :
    Unsaved capacity (uses ++ [use]) use.page ↔
      use.manner = .written ∨ Unsaved capacity uses use.page ∧ ¬Loads capacity uses use := by
  have changed : use.manner ≠ .read ↔ use.manner = .written := by
    cases manner : use.manner with
    | allocated => exact absurd manner known
    | read | written => decide
  rw [unsaved_append, changed, eq_self, true_and, true_and]

end Saving

end PageUse

end ShardQuery
