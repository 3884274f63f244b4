import Mathlib.Data.List.Dedup
import Mathlib.Data.List.Sublists
/-!
Lists without repetitions. Main statements: the sorted list of the members of a list depends on nothing but which
these are, and what is added to the end of a list is the last of its distinct members.
-/

set_option autoImplicit false

namespace ShardQuery

variable {α : Type}

theorem erase_reps_loop_sublist (same : α → α → Bool) (last : α) (rest kept : List α) :
    ∃ later, List.eraseRepsBy.loop same last rest kept = kept.reverse ++ later ∧ later.Sublist (last :: rest) := by
  induction rest generalizing last kept with
  | nil => exact ⟨[last], by simp [List.eraseRepsBy.loop], List.Sublist.refl _⟩
  | cons next rest ih =>
      rw [List.eraseRepsBy.loop]
      cases same last next with
      | true =>
          obtain ⟨later, found, inside⟩ := ih last kept
          exact ⟨later, found, inside.trans (List.Sublist.cons_cons last (List.sublist_cons_self next rest))⟩
      | false =>
          obtain ⟨later, found, inside⟩ := ih next (last :: kept)
          exact ⟨last :: later, by simp [found], List.Sublist.cons_cons last inside⟩

theorem erase_reps_sublist [BEq α] (items : List α) : items.eraseReps.Sublist items := by
  cases items with
  | nil => exact List.Sublist.refl _
  | cons first rest =>
      obtain ⟨later, found, inside⟩ := erase_reps_loop_sublist (· == ·) first rest []
      rw [List.eraseReps, List.eraseRepsBy, found]
      exact inside

section Ascending

variable [BEq α] [LawfulBEq α] {le : α → α → Prop} (antisymm : ∀ a b, le a b → le b a → a = b)

include antisymm

theorem erase_reps_loop_ascending (last : α) (rest kept : List α) (sorted : (last :: rest).Pairwise le) :
    ∃ later, List.eraseRepsBy.loop (· == ·) last rest kept = kept.reverse ++ last :: later ∧
      (last :: later).Pairwise (fun a b => le a b ∧ a ≠ b) ∧ ∀ a, a ∈ last :: later ↔ a ∈ last :: rest := by
  induction rest generalizing last kept with
  | nil => exact ⟨[], by simp [List.eraseRepsBy.loop], List.pairwise_singleton _ _, fun _ => Iff.rfl⟩
  | cons next rest ih =>
      obtain ⟨first, others⟩ := List.pairwise_cons.mp sorted
      rw [List.eraseRepsBy.loop]
      cases repeated : last == next with
      | true =>
          obtain rfl := beq_iff_eq.mp repeated
          obtain ⟨later, found, ascending, members⟩ := ih last kept others
          refine ⟨later, found, ascending, fun a => (members a).trans ?_⟩
          simp
      | false =>
          obtain ⟨later, found, ascending, members⟩ := ih next (last :: kept) others
          have different : last ≠ next := beq_eq_false_iff_ne.mp repeated
          refine ⟨next :: later, by rw [found]; simp, ?_, fun a => ?_⟩
          · refine List.pairwise_cons.mpr ⟨fun a member => ?_, ascending⟩
            refine ⟨first a ((members a).mp member), ?_⟩
            rintro rfl
            rcases List.mem_cons.mp member with same | among
            · exact different same
            · exact different (antisymm _ _ (first next List.mem_cons_self) ((List.pairwise_cons.mp ascending).1 _ among).1)
          · rw [List.mem_cons, members, ← List.mem_cons]

-- Each member of a sorted list once, in the order of the list.
theorem erase_reps_ascending {items : List α} (sorted : items.Pairwise le) :
    items.eraseReps.Pairwise (fun a b => le a b ∧ a ≠ b) ∧ ∀ a, a ∈ items.eraseReps ↔ a ∈ items := by
  cases items with
  | nil => exact ⟨.nil, fun _ => Iff.rfl⟩
  | cons first rest =>
      obtain ⟨later, found, ascending, members⟩ := erase_reps_loop_ascending antisymm first rest [] sorted
      rw [List.eraseReps, List.eraseRepsBy, found]
      exact ⟨ascending, members⟩

end Ascending

section Sorted

variable [BEq α] [LawfulBEq α] {le : α → α → Bool} (trans : ∀ a b c, le a b → le b c → le a c)
  (total : ∀ a b, le a b || le b a) (antisymm : ∀ a b, le a b → le b a → a = b)

include trans total antisymm

theorem sorted_reps_ascending (items : List α) :
    (items.mergeSort le).eraseReps.Pairwise (fun a b => le a b = true ∧ a ≠ b) ∧
      ∀ a, a ∈ (items.mergeSort le).eraseReps ↔ a ∈ items := by
  obtain ⟨ascending, members⟩ := erase_reps_ascending antisymm (List.pairwise_mergeSort trans total items)
  exact ⟨ascending, fun a => (members a).trans List.mem_mergeSort⟩

theorem sorted_reps_eq_iff (items others : List α) :
    (items.mergeSort le).eraseReps = (others.mergeSort le).eraseReps ↔ ∀ a, a ∈ items ↔ a ∈ others := by
  obtain ⟨ascending, members⟩ := sorted_reps_ascending trans total antisymm items
  obtain ⟨ascending', members'⟩ := sorted_reps_ascending trans total antisymm others
  refine ⟨fun same a => ?_, fun same => ?_⟩
  · rw [← members, same, members']
  · have once {list : List α} (ascending : list.Pairwise fun a b => le a b = true ∧ a ≠ b) : list.Nodup :=
      ascending.imp And.right
    have permuted := (List.perm_ext_iff_of_nodup (once ascending) (once ascending')).mpr fun a =>
      (members a).trans ((same a).trans (members' a).symm)
    exact permuted.eq_of_pairwise (fun a b _ _ less more => antisymm a b less.1 more.1) ascending ascending'

end Sorted

theorem dedup_append_one [DecidableEq α] (list : List α) (last : α) :
    (list ++ [last]).dedup = list.dedup.filter (· != last) ++ [last] := by
  induction list with
  | nil => rfl
  | cons a list ih =>
      rw [List.cons_append]
      by_cases kept : a ∈ list
      · rw [List.dedup_cons_of_mem kept, List.dedup_cons_of_mem (List.mem_append_left _ kept), ih]
      · rw [List.dedup_cons_of_notMem kept]
        by_cases same : a = last
        · rw [List.dedup_cons_of_mem (by simp [same]), List.filter_cons_of_neg (by simp [same]), ih]
        · rw [List.dedup_cons_of_notMem (by simp [kept, same]), List.filter_cons_of_pos (by simp [same]), ih,
            List.cons_append]

end ShardQuery
