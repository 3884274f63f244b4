import ShardQuery.Proofs.Statement.Told
import ShardQuery.Proofs.Statement.Twins
/-!
Queries on the same records in another order. Main statements: a query has an answer in either order or in neither, and
both answers hold the same rows, each as often.
-/

set_option autoImplicit false

namespace ShardQuery

namespace Row

-- Every row is among both as often, rows of equal values being taken for the same.
def AsOften (rows rows' : List Row) : Prop := ∀ row : Row, rows.countP (· == row) = rows'.countP (· == row)

variable {rows rows' : List Row}

theorem perm_as_often (same : rows.Perm rows') : AsOften rows rows' := fun _ => same.countP_eq _

theorem as_often_symm (often : AsOften rows rows') : AsOften rows' rows := fun row => (often row).symm

theorem as_often_trans {rows'' : List Row} (often : AsOften rows rows') (often' : AsOften rows' rows'') :
    AsOften rows rows'' := fun row => (often row).trans (often' row)

theorem as_often_mem (often : AsOften rows rows') {row : Row} (member : row ∈ rows) :
    ∃ other ∈ rows', (other == row) = true := by
  have itself : (row == row) = true := (beq_iff_map_canonical row row).mpr rfl
  have counted : 0 < rows.countP (· == row) := List.countP_pos_iff.mpr ⟨row, member, itself⟩
  rw [often row] at counted
  exact List.countP_pos_iff.mp counted

theorem count_values (rows : List Row) (row : Row) : rows.countP (· == row) =
    (rows.map fun row => row.values.map Value.canonical).count (row.values.map Value.canonical) := by
  rw [List.count, List.countP_map]
  refine List.countP_congr fun other _ => ?_
  rw [beq_iff_map_canonical, Function.comp_apply, beq_iff_eq]

-- The first occurrences do not depend on the order, up to their own.
theorem first_occurrences_as_often (same : rows.Perm rows') :
    AsOften (firstOccurrences rows) (firstOccurrences rows') := by
  have once (rows : List Row) (row : Row) : (firstOccurrences rows).countP (· == row) =
      if (row.values.map Value.canonical) ∈ rows.map fun row => row.values.map Value.canonical then 1 else 0 := by
    have known := first_by_keys (fun row : Row => row.values.map Value.canonical) rows [] (row.values.map Value.canonical)
    rw [List.nil_append, List.nil_append] at known
    rw [count_values, first_occurrences_by_values, (first_by_once _ rows []).1.count]
    exact if_congr known rfl rfl
  intro row
  rw [once, once]
  exact if_congr (same.map _).mem_iff rfl rfl

end Row

namespace Select

open Row

variable {query analyzed : Select} {input output : Schema} {records records' rows rows' : List Row}

theorem images_perm (query : Select) (input : Schema) (same : records.Perm records') :
    Agree List.Perm (query.images input records) (query.images input records') :=
  agree_bind (filter_m_perm _ same) fun _ _ _ _ kept => map_m_perm _ kept

theorem merged_as_often (query : Select) (same : rows.Perm rows') : AsOften (query.merged rows) (query.merged rows') := by
  rw [merged, merged]
  split
  · exact first_occurrences_as_often same
  · exact perm_as_often same

theorem keys_twins {a b : Row} (twins : a.Twins b) (found : ∃ values, query.keysIn output a = .ok values) :
    ∃ values, query.keysIn output b = .ok values := by
  obtain ⟨values, done⟩ := found
  have each : List.Forall₂ (fun item item' : OrderItem =>
      Agree Value.Twins (item.key.valueIn output a) (item'.key.valueIn output b)) query.orderBy query.orderBy :=
    List.forall₂_same.mpr fun item _ => item.key.value_twins twins
  obtain ⟨values', done', -⟩ := agree_ok (agree_map_m each) done
  exact ⟨values', done'⟩

-- Rows that hold each other's equals can both be sorted, or neither.
theorem sorted_agree (often : AsOften rows rows') (fits : ∀ row ∈ rows, row.Fits output)
    (fits' : ∀ row ∈ rows', row.Fits output) :
    Agree AsOften (query.sorted output rows) (query.sorted output rows') := by
  have total {rows rows' : List Row} (often : AsOften rows rows') (fits : ∀ row ∈ rows, row.Fits output)
      (fits' : ∀ row ∈ rows', row.Fits output) (done : ∃ sorted, query.sorted output rows = .ok sorted) :
      ∃ sorted, query.sorted output rows' = .ok sorted := by
    refine sorted_total.mpr fun row member => ?_
    obtain ⟨other, among, equal⟩ := as_often_mem (as_often_symm often) member
    exact keys_twins (beq_twins (fits other among) (fits' row member) equal) (sorted_total.mp done other among)
  refine agree_of_ok (fun sorted done => ?_) fun sorted' done' => total (as_often_symm often) fits' fits ⟨sorted', done'⟩
  obtain ⟨sorted', done'⟩ := total often fits fits' ⟨sorted, done⟩
  refine ⟨sorted', done', as_often_trans (perm_as_often (sorted_perm done)) (as_often_trans often ?_)⟩
  exact perm_as_often (sorted_perm done').symm

theorem unwindowed_agree (described : outputSchema analyzed.projection input = .ok output)
    (same : records.Perm records') (fits : ∀ record ∈ records, record.Fits input) :
    Agree AsOften (analyzed.unwindowed input output records) (analyzed.unwindowed input output records') := by
  have fits' : ∀ record ∈ records', record.Fits input := fun record listed => fits record (same.mem_iff.mpr listed)
  have merging : Agree (fun rows rows' => AsOften rows rows' ∧ (∀ row ∈ rows, row.Fits output) ∧
      ∀ row ∈ rows', row.Fits output)
      ((analyzed.images input records).map analyzed.merged) ((analyzed.images input records').map analyzed.merged) := by
    refine agree_map (images_perm analyzed input same) fun images images' done done' same' => ⟨?_, ?_, ?_⟩
    · exact merged_as_often analyzed same'
    · exact images_fit_output described fits done
    · exact images_fit_output described fits' done'
  exact agree_bind merging fun rows rows' _ _ ⟨often, fitting, fitting'⟩ => sorted_agree often fitting fitting'

-- An analyzed query hands out the same on the same records, in whatever order they come.
theorem handed_agree (described : outputSchema analyzed.projection input = .ok output)
    (same : records.Perm records') (fits : ∀ record ∈ records, record.Fits input) :
    Agree (fun rows rows' => analyzed.window? = none → AsOften rows rows') (analyzed.handed input output records)
      (analyzed.handed input output records') := by
  rw [handed, handed, answer_windowed, answer_windowed]
  split
  · exact fun _ => perm_as_often (.refl [])
  · refine agree_map (unwindowed_agree described same fits) fun rows rows' _ _ often none => ?_
    rw [windowed, windowed, none]
    exact often

theorem handed_fits (described : outputSchema analyzed.projection input = .ok output)
    (fits : ∀ record ∈ records, record.Fits input) (done : analyzed.handed input output records = .ok rows) :
    ∀ row ∈ rows, row.Fits output := by
  rw [handed, answer_windowed] at done
  split at done
  · cases done
    exact List.forall_mem_nil _
  · obtain ⟨sorted, whole, rfl⟩ := ok_of_map done
    obtain ⟨merged, made, ordered⟩ := ok_of_bind whole
    obtain ⟨images, evaluated, rfl⟩ := ok_of_map made
    intro row member
    have inside : row ∈ sorted := by
      rw [windowed] at member
      split at member
      · exact List.mem_of_mem_drop (List.mem_of_mem_take member)
      · exact member
    exact images_fit_output described fits evaluated row ((sorted_perm ordered).mem_iff.mp inside)

theorem handed_in_order (analysis : query.Analysis analyzed input output) (fits : ∀ record ∈ records, record.Fits input)
    (done : analyzed.handed input output records = .ok rows) : analyzed.InOrder output rows := by
  rw [handed, answer_windowed] at done
  split at done
  · cases done
    exact ⟨[], rfl, .nil⟩
  · obtain ⟨sorted, whole, rfl⟩ := ok_of_map done
    obtain ⟨merged, made, ordered⟩ := ok_of_bind whole
    obtain ⟨images, evaluated, rfl⟩ := ok_of_map made
    obtain ⟨keyed, valued, arranged⟩ :=
      sorted_in_order analysis.ordered (images_fit_output analysis.described fits evaluated) ordered
    rw [windowed]
    split
    · refine ⟨_, map_m_ok_iff.mpr (List.forall₂_take _ (List.forall₂_drop _ (map_m_ok_iff.mp valued))), ?_⟩
      exact arranged.sublist ((List.take_sublist _ _).trans (List.drop_sublist _ _))
    · exact ⟨keyed, valued, arranged⟩

end Select

end ShardQuery
