import ShardQuery.Fingerprint
import ShardQuery.Proofs.Value.Canonical
/-!
First occurrences by a key. Main statements: the rows that equal no earlier row are the first by any key that tells
apart exactly the rows that differ, and removing duplicates part by part first makes no difference.
-/

set_option autoImplicit false

namespace ShardQuery.Row

def fingerprint (row : Row) : Fingerprint := Fingerprint.ofBytes row.canonical

variable {κ κ' : Type} [DecidableEq κ] [DecidableEq κ']

-- The rows whose key is neither known nor that of an earlier row.
def firstBy (key : Row → κ) (known : List κ) : List Row → List Row
  | [] => []
  | row :: rows => if key row ∈ known then firstBy key known rows else row :: firstBy key (known ++ [key row]) rows

theorem first_by_congr (key : Row → κ) (key' : Row → κ') (rows : List Row) (known : List κ) (known' : List κ')
    (held : ∀ a ∈ rows, key a ∈ known ↔ key' a ∈ known')
    (same : ∀ a ∈ rows, ∀ b ∈ rows, key a = key b ↔ key' a = key' b) :
    firstBy key known rows = firstBy key' known' rows := by
  induction rows generalizing known known' with
  | nil => rfl
  | cons row rows ih =>
      have heldRest (a : Row) (among : a ∈ rows) := held a (List.mem_cons_of_mem _ among)
      have sameRest (a : Row) (among : a ∈ rows) (b : Row) (among' : b ∈ rows) :=
        same a (List.mem_cons_of_mem _ among) b (List.mem_cons_of_mem _ among')
      by_cases old : key row ∈ known
      · have old' := (held row List.mem_cons_self).mp old
        rw [firstBy, if_pos old, firstBy, if_pos old', ih known known' heldRest sameRest]
      · have new' : key' row ∉ known' := fun among => old ((held row List.mem_cons_self).mpr among)
        have extended (a : Row) (among : a ∈ rows) : key a ∈ known ++ [key row] ↔ key' a ∈ known' ++ [key' row] := by
          rw [List.mem_append, List.mem_singleton, List.mem_append, List.mem_singleton, heldRest a among,
            same a (List.mem_cons_of_mem _ among) row List.mem_cons_self]
        rw [firstBy, if_neg old, firstBy, if_neg new', ih _ _ extended sameRest]

theorem kept_by_values (rows kept : List Row) :
    rows.foldl (fun kept row => if kept.any (· == row) then kept else kept ++ [row]) kept =
      kept ++ firstBy (fun row => row.values.map Value.canonical)
        (kept.map fun row => row.values.map Value.canonical) rows := by
  induction rows generalizing kept with
  | nil => exact (List.append_nil kept).symm
  | cons row rows ih =>
      have known : kept.any (· == row) = true ↔
          row.values.map Value.canonical ∈ kept.map fun row => row.values.map Value.canonical := by
        simp only [List.any_eq_true, beq_iff_map_canonical, List.mem_map]
      rw [List.foldl_cons, firstBy]
      by_cases old : kept.any (· == row) = true
      · rw [if_pos old, if_pos (known.mp old), ih]
      · rw [if_neg old, if_neg fun among => old (known.mpr among), ih, List.map_append, List.append_assoc]
        rfl

theorem first_occurrences_by_values (rows : List Row) :
    firstOccurrences rows = firstBy (fun row => row.values.map Value.canonical) [] rows :=
  (kept_by_values rows []).trans (List.nil_append _)

theorem first_by_canonical (rows : List Row) (measured : ∀ row ∈ rows, row.Measured) :
    firstBy canonical [] rows = firstOccurrences rows := by
  rw [first_occurrences_by_values]
  apply first_by_congr
  · simp
  · intro a among b among'
    rw [canonical_eq_iff a b (measured a among) (measured b among'), beq_iff_map_canonical]

theorem first_by_fingerprint (rows : List Row)
    (injective : ∀ a ∈ rows, ∀ b ∈ rows, a.fingerprint = b.fingerprint → a.canonical = b.canonical) :
    firstBy fingerprint [] rows = firstBy canonical [] rows := by
  apply first_by_congr
  · simp
  · intro a among b among'
    exact ⟨injective a among b among', fun same => by rw [fingerprint, same, fingerprint]⟩

-- Rows with one fingerprint are equal: then the first of each fingerprint are the first of their kind.
theorem first_by_faithful (rows : List Row)
    (faithful : ∀ a ∈ rows, ∀ b ∈ rows, a.fingerprint = b.fingerprint → (a == b) = true) :
    firstBy fingerprint [] rows = firstOccurrences rows := by
  rw [first_occurrences_by_values]
  apply first_by_congr
  · simp
  · intro a among b among'
    refine ⟨fun same => (beq_iff_map_canonical a b).mp (faithful a among b among' same), fun same => ?_⟩
    rw [fingerprint, canonical_of_beq a b ((beq_iff_map_canonical a b).mpr same), fingerprint]

theorem mem_first_by (key : Row → κ) (rows : List Row) (known : List κ) (row : Row)
    (member : row ∈ firstBy key known rows) : row ∈ rows := by
  induction rows generalizing known with
  | nil => exact member
  | cons first rows ih =>
      rw [firstBy] at member
      split at member
      · exact List.mem_cons_of_mem _ (ih known member)
      · rcases List.mem_cons.mp member with rfl | later
        · exact List.mem_cons_self
        · exact List.mem_cons_of_mem _ (ih _ later)

theorem mem_first_occurrences (rows : List Row) (row : Row) (member : row ∈ firstOccurrences rows) : row ∈ rows := by
  rw [first_occurrences_by_values] at member
  exact mem_first_by _ rows [] row member

theorem first_by_known (key : Row → κ) (rows : List Row) (known known' : List κ) (same : ∀ k, k ∈ known ↔ k ∈ known') :
    firstBy key known rows = firstBy key known' rows :=
  first_by_congr key key rows known known' (fun row _ => same (key row)) fun _ _ _ _ => Iff.rfl

theorem first_by_append (key : Row → κ) (a b : List Row) (known : List κ) :
    firstBy key known (a ++ b) = firstBy key known a ++ firstBy key (known ++ a.map key) b := by
  induction a generalizing known with
  | nil => rw [List.map_nil, List.append_nil, firstBy, List.nil_append, List.nil_append]
  | cons row a ih =>
      rw [List.cons_append, firstBy, firstBy]
      by_cases old : key row ∈ known
      · rw [if_pos old, if_pos old, ih]
        congr 1
        apply first_by_known
        intro k
        simp only [List.map_cons, List.mem_append, List.mem_cons]
        exact ⟨fun held => held.imp_right .inr, fun held => held.elim .inl fun later =>
          later.elim (fun same => .inl (same ▸ old)) .inr⟩
      · rw [if_neg old, if_neg old, ih, List.map_cons, List.append_assoc, List.singleton_append]
        rfl

-- What an earlier search leaves out, the later one knows as well.
theorem first_by_again (key : Row → κ) (rows : List Row) (known known' : List κ)
    (fewer : ∀ row ∈ rows, key row ∈ known' → key row ∈ known) :
    firstBy key known (firstBy key known' rows) = firstBy key known rows := by
  induction rows generalizing known known' with
  | nil => rfl
  | cons row rows ih =>
      have rest (other : Row) (among : other ∈ rows) := fewer other (List.mem_cons_of_mem _ among)
      rw [firstBy, firstBy]
      by_cases skipped : key row ∈ known'
      · rw [if_pos skipped, if_pos (fewer row List.mem_cons_self skipped), ih known known' rest]
      · rw [if_neg skipped, firstBy]
        by_cases old : key row ∈ known
        · rw [if_pos old, if_pos old]
          refine ih known _ fun other among held => ?_
          rcases List.mem_append.mp held with earlier | now
          · exact rest other among earlier
          · exact List.mem_singleton.mp now ▸ old
        · rw [if_neg old, if_neg old, ih]
          intro other among held
          rcases List.mem_append.mp held with earlier | now
          · exact List.mem_append_left _ (rest other among earlier)
          · exact List.mem_append_right _ now

theorem first_by_keys (key : Row → κ) (rows : List Row) (known : List κ) (k : κ) :
    k ∈ known ++ (firstBy key known rows).map key ↔ k ∈ known ++ rows.map key := by
  induction rows generalizing known with
  | nil => rfl
  | cons row rows ih =>
      rw [firstBy]
      by_cases old : key row ∈ known
      · rw [if_pos old, ih known]
        simp only [List.map_cons, List.mem_append, List.mem_cons]
        exact ⟨fun held => held.imp_right .inr, fun held => held.elim .inl fun later =>
          later.elim (fun same => .inl (same ▸ old)) .inr⟩
      · have both := ih (known ++ [key row])
        rw [List.append_assoc, List.append_assoc, List.singleton_append, List.singleton_append] at both
        rw [if_neg old]
        exact both

-- Each key comes once, and none of the known ones.
theorem first_by_once (key : Row → κ) (rows : List Row) (known : List κ) :
    ((firstBy key known rows).map key).Nodup ∧ ∀ k ∈ (firstBy key known rows).map key, k ∉ known := by
  induction rows generalizing known with
  | nil => exact ⟨List.nodup_nil, nofun⟩
  | cons row rows ih =>
      rw [firstBy]
      by_cases old : key row ∈ known
      · rw [if_pos old]
        exact ih known
      · rw [if_neg old, List.map_cons, List.nodup_cons]
        obtain ⟨single, fresh⟩ := ih (known ++ [key row])
        refine ⟨⟨fun again => ?_, single⟩, fun k member held => ?_⟩
        · exact fresh _ again (List.mem_append_right _ (List.mem_singleton.mpr rfl))
        · rcases List.mem_cons.mp member with rfl | later
          · exact old held
          · exact fresh k later (List.mem_append_left _ held)

theorem first_by_parts (key : Row → κ) (parts : List (List Row)) (known : List κ) :
    firstBy key known (parts.map (firstBy key [])).flatten = firstBy key known parts.flatten := by
  induction parts generalizing known with
  | nil => rfl
  | cons part parts ih =>
      rw [List.map_cons, List.flatten_cons, List.flatten_cons, first_by_append, first_by_append, ih,
        first_by_again key part known [] (fun _ _ => nofun)]
      congr 1
      apply first_by_known
      intro k
      have same := first_by_keys key part [] k
      rw [List.nil_append, List.nil_append] at same
      rw [List.mem_append, List.mem_append, same]

-- Duplicates can be removed from the parts of a list first.
theorem first_occurrences_parts (parts : List (List Row)) :
    firstOccurrences (parts.map firstOccurrences).flatten = firstOccurrences parts.flatten := by
  have each : parts.map firstOccurrences = parts.map (firstBy (fun row => row.values.map Value.canonical) []) :=
    List.map_congr_left fun part _ => first_occurrences_by_values part
  rw [each, first_occurrences_by_values, first_occurrences_by_values, first_by_parts]

end ShardQuery.Row
