import ShardQuery.Cursor.Gather
import ShardQuery.Proofs.Statement.Qualified
/-!
Sort keys. Main statement: bound keys put rows that fit in the order of the written ones.
-/

set_option autoImplicit false

namespace ShardQuery.Select

variable {query : Select} {output : Schema}

-- A bound sort key, with the direction and the type of the written one.
structure Keyed (output : Schema) (item : OrderItem) (type : Option DataType) (bound : SortKey) : Prop where
  direction : bound.descending = item.descending
  value : ∀ row : Row, row.Fits output → ∀ v, item.key.valueIn output row = .ok v →
    bound.key.eval row none = .ok v ∧ v.Of type

theorem order_typed {item analyzed : OrderItem} (done : analyzeOrder output item = .ok analyzed) :
    item.key.qualify output = .ok analyzed.key ∧ analyzed.descending = item.descending ∧
      ∃ type, analyzed.key.type output = .ok type := by
  obtain ⟨qualified, first, done⟩ := ok_of_bind done
  obtain ⟨type, typed, done⟩ := ok_of_bind done
  split at done
  · cases done
  · cases done
  · cases done
    exact ⟨first, rfl, type, typed⟩

theorem key_binds (item analyzed : OrderItem) (done : analyzeOrder output item = .ok analyzed) :
    ∃ bound type, analyzed.key.bind output = .ok bound ∧ Keyed output item type ⟨bound, analyzed.descending⟩ := by
  obtain ⟨first, direction, type, typed⟩ := order_typed done
  obtain ⟨bound, binds⟩ := Expr.qualify_binds item.key analyzed.key first
  refine ⟨bound, type, binds, direction, fun row fits v evaluated => ?_⟩
  have valued := Expr.qualify_value fits item.key analyzed.key first v evaluated
  exact ⟨(Expr.bind_value analyzed.key bound binds).trans valued, Expr.type_sound fits analyzed.key type v typed valued⟩

-- Values of one type have a common order.
theorem uniform_of_same (types : List DataType) (type : DataType) (same : ∀ other ∈ types, other = type) :
    DataType.uniform types = true := by
  cases types with
  | nil => rfl
  | cons first rest =>
      rw [DataType.uniform, Bool.or_eq_true]
      refine .inl (List.all_eq_true.mpr fun other member => beq_iff_eq.mpr ?_)
      rw [same other (List.mem_cons_of_mem _ member), same first List.mem_cons_self]

theorem compare_bound (items : List OrderItem) (keys : List SortKey)
    (bound : List.Forall₂ (fun (item : OrderItem) (key : SortKey) => key.descending = item.descending) items keys)
    (as bs : List Value) : SortKey.compareAll keys as bs = OrderItem.compareKeys items as bs := by
  induction bound generalizing as bs with
  | nil => rfl
  | @cons item key items keys direction _ ih =>
      cases as with
      | nil => rfl
      | cons a as =>
          cases bs with
          | nil => rfl
          | cons b bs =>
              have first : key.compareValues a b = item.compareValues a b := by
                rw [SortKey.compareValues, OrderItem.compareValues, direction]
                cases item.descending <;> cases a <;> cases b <;> rfl
              rw [SortKey.compareAll, OrderItem.compareKeys, first, ih]

theorem keys_value {keys : List SortKey} {row : Row} {values : List Value} (fits : row.Fits output)
    (bound : List.Forall₂ (fun item key => ∃ type, Keyed output item type key) query.orderBy keys)
    (evaluated : query.keysIn output row = .ok values) : SortKey.valuesOf keys none row = .ok values := by
  refine map_m_ok_iff.mpr (forall₂_join bound (map_m_ok_iff.mp evaluated) ?_)
  rintro item key - v - ⟨type, keyed⟩ own
  exact (keyed.value row fits v own).1

-- Where the values of each key are of one type, null aside, they have a common order.
theorem uniform_typed {keys : List SortKey} {listed : List (List Value)}
    (typed : ∀ i < keys.length, ∃ type, ∀ values ∈ listed, ∀ v, values[i]? = some v → v.Of type) :
    SortKey.uniform keys listed = true := by
  refine List.all_eq_true.mpr fun i small => ?_
  obtain ⟨type, each⟩ := typed i (List.mem_range.mp small)
  refine uniform_of_same _ (type.getD .int) fun other member => ?_
  obtain ⟨values, among, found⟩ := List.mem_filterMap.mp member
  obtain ⟨v, held, known⟩ := Option.bind_eq_some_iff.mp found
  rcases each values among v held with rfl | same
  · cases known
  · rw [← same, known]
    rfl

theorem keys_uniform {keys : List SortKey} {keyed : List (List Value × Row)} (fits : ∀ entry ∈ keyed, entry.2.Fits output)
    (bound : List.Forall₂ (fun item key => ∃ type, Keyed output item type key) query.orderBy keys)
    (evaluated : ∀ entry ∈ keyed, query.keysIn output entry.2 = .ok entry.1) :
    SortKey.uniform keys (keyed.map (·.1)) = true := by
  refine uniform_typed fun i small => ?_
  have inside : i < query.orderBy.length := bound.length_eq ▸ small
  obtain ⟨key, -, type, own⟩ := forall₂_at bound i _ (List.getElem?_eq_getElem inside)
  refine ⟨type, fun values listed v held => ?_⟩
  obtain ⟨entry, among, rfl⟩ := List.mem_map.mp listed
  obtain ⟨w, held', valued⟩ :=
    forall₂_at (map_m_ok_iff.mp (evaluated entry among)) i _ (List.getElem?_eq_getElem inside)
  rw [held] at held'
  cases held'
  exact (own.value entry.2 (fits entry among) v valued).2

-- Bound keys sort rows as the written ones do.
theorem sort_sorted {keys : List SortKey} {rows sorted : List Row} (fits : ∀ row ∈ rows, row.Fits output)
    (bound : List.Forall₂ (fun item key => ∃ type, Keyed output item type key) query.orderBy keys)
    (ordered : query.sorted output rows = .ok sorted) :
    ∃ keyed, (rows.mapM fun row => do return (← SortKey.valuesOf keys none row, row)) = Except.ok keyed ∧
      SortKey.sort keys keyed = .ok sorted := by
  obtain ⟨keyed, evaluated, ordered⟩ := ok_of_bind ordered
  have each : List.Forall₂ (fun row (entry : List Value × Row) => query.keysIn output row = .ok entry.1 ∧ entry.2 = row)
      rows keyed := by
    refine (map_m_ok_iff.mp evaluated).imp fun row entry done => ?_
    obtain ⟨values, own, rfl⟩ := ok_of_map done
    exact ⟨own, rfl⟩
  have valued (entry : List Value × Row) (member : entry ∈ keyed) :
      entry.2 ∈ rows ∧ query.keysIn output entry.2 = .ok entry.1 := by
    obtain ⟨row, among, own, rfl⟩ := forall₂_origin each entry member
    exact ⟨among, own⟩
  refine ⟨keyed, ?_, ?_⟩
  · refine map_m_ok_iff.mpr (forall₂_imp_of_mem each fun row entry among own => ?_)
    obtain ⟨own, rfl⟩ := own
    rw [keys_value (fits _ (valued entry among).1) bound own]
    rfl
  · have directions := bound.imp fun item key keyed => keyed.choose_spec.direction
    have uniform := keys_uniform (fun entry member => fits _ (valued entry member).1) bound
      fun entry member => (valued entry member).2
    rw [SortKey.sort, SortKey.arrange, if_pos uniform]
    simp only [compare_bound query.orderBy keys directions]
    exact ordered

theorem keys_bind {items : List OrderItem} (ordered : query.orderBy.mapM (analyzeOrder output) = .ok items) :
    ∃ keys, (items.mapM fun item => do return (⟨← item.key.bind output, item.descending⟩ : SortKey)) =
        Except.ok keys ∧ List.Forall₂ (fun item key => ∃ type, Keyed output item type key) query.orderBy keys := by
  have made := map_m_ok_iff.mp ordered
  have bound : ∀ analyzed ∈ items, ∃ key,
      (do return (⟨← analyzed.key.bind output, analyzed.descending⟩ : SortKey)) = Except.ok key := by
    intro analyzed member
    obtain ⟨item, -, own⟩ := map_m_ok_origin ordered analyzed member
    obtain ⟨key, _, binds, -⟩ := key_binds item analyzed own
    exact ⟨⟨key, analyzed.descending⟩, bind_of_ok binds rfl⟩
  obtain ⟨keys, binds⟩ := map_m_ok_total.mpr bound
  refine ⟨keys, binds, forall₂_join made.flip (map_m_ok_iff.mp binds) ?_⟩
  intro analyzed item _ key _ own done
  obtain ⟨inner, type, binds, keyed⟩ := key_binds item analyzed own
  rw [binds] at done
  cases done
  exact ⟨type, keyed⟩

theorem merge_sort_unordered {α : Type} (items : List α) : items.mergeSort (fun _ _ => true) = items :=
  List.mergeSort_of_pairwise (List.pairwise_of_forall fun _ _ => rfl)

theorem sorted_unordered {rows sorted : List Row} (none : query.orderBy = [])
    (ordered : query.sorted output rows = .ok sorted) : sorted = rows := by
  obtain ⟨keyed, evaluated, ordered⟩ := ok_of_bind ordered
  obtain ⟨image, each, rfl⟩ := map_m_ok_image evaluated
  rw [none] at ordered
  rw [← Except.ok.inj ordered]
  change ((rows.map image).mergeSort fun _ _ => true).map (·.2) = rows
  rw [merge_sort_unordered, List.map_map]
  refine (List.map_congr_left fun row member => ?_).trans (List.map_id rows)
  obtain ⟨values, -, same⟩ := ok_of_map (each row member)
  rw [Function.comp_apply, ← same]
  rfl

end ShardQuery.Select
