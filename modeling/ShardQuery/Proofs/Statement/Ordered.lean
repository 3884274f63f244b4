import Std.Data.TreeMap
import ShardQuery.Proofs.Cursor.Streams
import ShardQuery.Proofs.Statement.Sorted
import ShardQuery.Proofs.Value.Compared
/-!
Rows in the order of sort keys. Main statements: values of one type have a common order, so rows that are sorted by keys
that passed the analysis are in their order, and bound keys sort rows that fit as the analyzed ones do, failures included.
-/

set_option autoImplicit false

namespace ShardQuery

-- Types whose values have an order.
def DataType.Sortable (type : Option DataType) : Prop := type ≠ some .idSet ∧ type ≠ some .stringSet

theorem Scaled.order_small (a b : Int) (scale : UInt8) (small : a.natAbs < 2 ^ 64) (small' : b.natAbs < 2 ^ 64) :
    order? ⟨a, scale⟩ ⟨b, scale⟩ = some (compare a b) := by
  have widened (n : Int) (small : n.natAbs < 2 ^ 64) : widen? n 0 = some n := by
    rw [(widen_small small (Nat.zero_le _)).1, Int.pow_zero, Int.mul_one]
  rw [order?, align?]
  simp only [ite_self, Nat.sub_self, widened a small, widened b small', Option.bind_some, Option.map_some]

namespace Value

theorem scaled_typed {type : DataType} (numeric : type.isNumeric = true) {v : Value} (typed : v.dataType? = some type) :
    ∃ n, v.scaled? = some ⟨n, type.scale⟩ ∧ n.natAbs < 2 ^ 64 := by
  obtain ⟨⟨n, scale⟩, known⟩ := number_of_type typed numeric
  obtain rfl : scale = type.scale := scale_of_type typed known
  exact ⟨n, known, scaled_small known⟩

-- Numbers of one type are ordered by their unscaled digits.
theorem order_numeric {type : DataType} (numeric : type.isNumeric = true) {v w : Value} (typed : v.dataType? = some type)
    (typed' : w.dataType? = some type) : v.order? w = some (compare ((v.scaled?.map Scaled.unscaled).getD 0)
      ((w.scaled?.map Scaled.unscaled).getD 0)) := by
  obtain ⟨n, scaled, small⟩ := scaled_typed numeric typed
  obtain ⟨m, scaled', small'⟩ := scaled_typed numeric typed'
  rw [(order_number v w _ scaled (given_of_number scaled')).1, scaled, scaled']
  exact Scaled.order_small n m type.scale small small'

-- Where a value stands among those of its type.
theorem order_placed (type : DataType) (sortable : DataType.Sortable (some type)) :
    ∃ (κ : Type) (_ : Ord κ) (_ : Std.TransOrd κ) (place : Value → κ), ∀ v w : Value,
      v.dataType? = some type → w.dataType? = some type → v.order? w = some (compare (place v) (place w)) := by
  cases type with
  | idSet => exact absurd rfl sortable.1
  | stringSet => exact absurd rfl sortable.2
  | int | id | decimal => exact ⟨Int, inferInstance, inferInstance, _, fun _ _ => order_numeric rfl⟩
  | bool =>
      refine ⟨Bool, inferInstance, inferInstance, fun v => v.asBool?.getD false, ?_⟩
      intro v w typed typed'
      cases v <;> cases typed
      cases w <;> cases typed'
      rfl
  | string =>
      refine ⟨String, inferInstance, inferInstance, Value.text, ?_⟩
      intro v w typed typed'
      cases v <;> cases typed
      cases w <;> cases typed'
      rfl
  | timestamp =>
      refine ⟨Int64, inferInstance, inferInstance, fun v => match v with | .timestamp t => t | _ => 0, ?_⟩
      intro v w typed typed'
      cases v <;> cases typed
      cases w <;> cases typed'
      rfl

theorem null_of_is_null {v : Value} (none : v.isNull = true) : v = .null := by
  cases v with
  | null => rfl
  | bool | int | id | decimal | string | timestamp | idSet | stringSet => cases none

end Value

theorem trans_cmp_on {α β : Type} (cmp : β → β → Ordering) [Std.TransCmp cmp] (f : α → β) :
    Std.TransCmp fun a b => cmp (f a) (f b) where
  eq_swap := Std.OrientedCmp.eq_swap
  isLE_trans := Std.TransCmp.isLE_trans

namespace OrderItem

-- Nulls come first in either direction.
theorem compare_nulls (item : OrderItem) {v : Value} (given : v.isNull = false) :
    item.compareValues .null v = .lt ∧ item.compareValues v .null = .gt := by
  rw [compareValues, compareValues]
  cases v with
  | null => cases given
  | bool | int | id | decimal | string | timestamp | idSet | stringSet =>
      cases item.descending with
      | true => exact ⟨rfl, rfl⟩
      | false => exact ⟨rfl, rfl⟩

theorem compare_given (item : OrderItem) {v w : Value} (given : v.isNull = false) (given' : w.isNull = false) :
    item.compareValues v w =
      if item.descending then ((v.order? w).getD .eq).swap else (v.order? w).getD .eq := by
  rw [compareValues, given, given']
  cases item.descending with
  | true => rfl
  | false => rfl

-- Where a value that is not null stands in the direction of the item.
theorem compare_values_placed (item : OrderItem) (type : Option DataType) (sortable : DataType.Sortable type) :
    ∃ (κ : Type) (_ : Ord κ) (_ : Std.TransOrd κ) (place : Value → κ), ∀ v w : Value, v.Of type → w.Of type →
      v.isNull = false → w.isNull = false → item.compareValues v w = compare (place v) (place w) := by
  cases type with
  | none =>
      refine ⟨Bool, inferInstance, inferInstance, fun _ => false, fun v w suits _ given _ => ?_⟩
      obtain rfl : v = .null := suits.elim id Value.null_of_type
      cases given
  | some type =>
      obtain ⟨κ, order, trans, place, placed⟩ := Value.order_placed type sortable
      have typed (v : Value) (suits : v.Of (some type)) (given : v.isNull = false) : v.dataType? = some type := by
        rcases suits with rfl | typed
        · cases given
        · exact typed
      cases direction : item.descending with
      | false =>
          refine ⟨κ, order, trans, place, fun v w suits suits' given given' => ?_⟩
          rw [compare_given item given given', direction, placed v w (typed v suits given) (typed w suits' given')]
          rfl
      | true =>
          refine ⟨κ, order.opposite, inferInstance, place, fun v w suits suits' given given' => ?_⟩
          rw [compare_given item given given', direction, placed v w (typed v suits given) (typed w suits' given')]
          change (compare (place v) (place w)).swap = compare (place w) (place v)
          exact Std.OrientedCmp.eq_swap.symm

-- Values of one type, nulls among them, are compared by an order of all values.
theorem compare_values_ordered (item : OrderItem) (type : Option DataType) (sortable : DataType.Sortable type) :
    ∃ cmp : Value → Value → Ordering, Std.TransCmp cmp ∧
      ∀ v w : Value, v.Of type → w.Of type → item.compareValues v w = cmp v w := by
  obtain ⟨κ, order, trans, place, placed⟩ := item.compare_values_placed type sortable
  let place? (v : Value) : Option κ := if v.isNull then none else some (place v)
  refine ⟨fun v w => compare (place? v) (place? w), trans_cmp_on compare place?, fun v w suits suits' => ?_⟩
  cases given : v.isNull with
  | true =>
      obtain rfl := Value.null_of_is_null given
      cases given' : w.isNull with
      | true =>
          obtain rfl := Value.null_of_is_null given'
          rw [compareValues]
          cases item.descending with
          | true => rfl
          | false => rfl
      | false =>
          rw [(item.compare_nulls given').1]
          simp only [place?, given, given']
          rfl
  | false =>
      cases given' : w.isNull with
      | true =>
          obtain rfl := Value.null_of_is_null given'
          rw [(item.compare_nulls given).2]
          simp only [place?, given, given']
          rfl
      | false =>
          rw [placed v w suits suits' given given']
          simp only [place?, given, given']
          rfl

-- So are lists of values of the same types.
theorem compare_keys_ordered (items : List OrderItem) (types : List (Option DataType))
    (sortable : ∀ type ∈ types, DataType.Sortable type) :
    ∃ cmp : List Value → List Value → Ordering, Std.TransCmp cmp ∧ ∀ as bs : List Value,
      List.Forall₂ Value.Of types as → List.Forall₂ Value.Of types bs → compareKeys items as bs = cmp as bs := by
  induction items generalizing types with
  | nil => exact ⟨fun _ _ => .eq, { eq_swap := rfl, isLE_trans := fun _ _ => rfl }, fun _ _ _ _ => rfl⟩
  | cons item items ih =>
      cases types with
      | nil =>
          refine ⟨fun _ _ => .eq, { eq_swap := rfl, isLE_trans := fun _ _ => rfl }, fun as bs typed typed' => ?_⟩
          cases typed
          rfl
      | cons type types =>
          obtain ⟨first, others⟩ := List.forall_mem_cons.mp sortable
          obtain ⟨cmp, trans, same⟩ := item.compare_values_ordered type first
          obtain ⟨cmp', trans', same'⟩ := ih types others
          refine ⟨compareLex (fun as bs => cmp (as.headD .null) (bs.headD .null)) (fun as bs => cmp' as.tail bs.tail), ?_, ?_⟩
          · have := trans_cmp_on cmp fun values : List Value => values.headD .null
            have := trans_cmp_on cmp' fun values : List Value => values.tail
            infer_instance
          · rintro as bs (_ | ⟨suits, rest⟩) (_ | ⟨suits', rest'⟩)
            rw [compareKeys, same _ _ suits suits', same' _ _ rest rest']
            rfl

end OrderItem

namespace Select

variable {query analyzed : Select} {output : Schema} {rows : List Row}

-- The rows are in the order of the sort keys of the query.
def InOrder (query : Select) (output : Schema) (rows : List Row) : Prop :=
  ∃ keyed, rows.mapM (query.keysIn output) = .ok keyed ∧
    keyed.Pairwise fun a b => OrderItem.compareKeys query.orderBy a b ≠ .gt

theorem analyzed_keyed (ordered : query.orderBy.mapM (analyzeOrder output) = .ok analyzed.orderBy) {keys : List SortKey}
    (binds : (analyzed.orderBy.mapM fun item => do return (⟨← item.key.bind output, item.descending⟩ : SortKey)) =
      Except.ok keys) :
    List.Forall₂ (fun item key => ∃ type, Keyed output item type key) analyzed.orderBy keys := by
  refine forall₂_imp_of_mem (map_m_ok_iff.mp binds).flip ?_ |>.flip
  intro key item among done
  obtain ⟨bound, binds, done⟩ := ok_of_bind done
  cases done
  obtain ⟨given, -, analysis⟩ := map_m_ok_origin ordered item among
  obtain ⟨-, -, type, typed⟩ := order_typed analysis
  refine ⟨type, rfl, fun row fits v evaluated => ?_⟩
  exact ⟨(Expr.bind_value item.key bound binds).trans evaluated, Expr.type_sound fits item.key type v typed evaluated⟩

theorem keys_valued {keys : List SortKey}
    (binds : (analyzed.orderBy.mapM fun item => do return (⟨← item.key.bind output, item.descending⟩ : SortKey)) =
      Except.ok keys) (row : Row) : SortKey.valuesOf keys none row = analyzed.keysIn output row := by
  refine (map_m_congr₂ ((map_m_ok_iff.mp binds).imp fun item key done => ?_)).symm
  obtain ⟨bound, binds, done⟩ := ok_of_bind done
  cases done
  exact (Expr.bind_value item.key bound binds).symm

-- Bound keys sort rows that fit as the analyzed ones do, if they have values.
theorem sort_rows_sorted (ordered : query.orderBy.mapM (analyzeOrder output) = .ok analyzed.orderBy) {keys : List SortKey}
    (binds : (analyzed.orderBy.mapM fun item => do return (⟨← item.key.bind output, item.descending⟩ : SortKey)) =
      Except.ok keys) (fits : ∀ row ∈ rows, row.Fits output) :
    SortKey.sortRows keys none rows = analyzed.sorted output rows := by
  have bound := analyzed_keyed ordered binds
  have each : SortKey.keyed keys none = fun row => (analyzed.keysIn output row).map (·, row) := by
    funext row
    rw [SortKey.keyed, keys_valued binds]
    rfl
  cases sorted : analyzed.sorted output rows with
  | ok sorted' =>
      obtain ⟨keyed, evaluated, arranged⟩ := sort_sorted fits bound sorted
      exact bind_of_ok evaluated arranged
  | error e =>
      rw [SortKey.sortRows, each]
      rw [Select.sorted] at sorted
      cases keyed : rows.mapM fun row => (analyzed.keysIn output row).map (·, row) with
      | error e' =>
          rw [keyed] at sorted
          exact sorted
      | ok entries =>
          rw [keyed] at sorted
          cases sorted

theorem keyed_entries {keyed : List (List Value × Row)}
    (evaluated : (rows.mapM fun row => (query.keysIn output row).map (·, row)) = .ok keyed) :
    (∀ entry ∈ keyed, query.keysIn output entry.2 = .ok entry.1) ∧ keyed.map (·.2) = rows := by
  have each := map_m_ok_iff.mp evaluated
  constructor
  · intro entry member
    obtain ⟨row, -, done⟩ := forall₂_origin each entry member
    obtain ⟨values, own, rfl⟩ := ok_of_map done
    exact own
  · rw [← List.forall₂_eq_eq_eq, List.forall₂_map_left_iff]
    refine each.flip.imp fun entry row done => ?_
    obtain ⟨values, -, rfl⟩ := ok_of_map done
    rfl

theorem sorted_perm {sorted : List Row} (done : query.sorted output rows = .ok sorted) : sorted.Perm rows := by
  obtain ⟨keyed, evaluated, done⟩ := ok_of_bind done
  rw [← Except.ok.inj done, ← (keyed_entries evaluated).2]
  exact (List.mergeSort_perm keyed _).map _

-- Rows can be sorted if all of them have keys.
theorem sorted_total : (∃ sorted, query.sorted output rows = .ok sorted) ↔
    ∀ row ∈ rows, ∃ values, query.keysIn output row = .ok values := by
  constructor
  · rintro ⟨sorted, done⟩ row member
    obtain ⟨keyed, evaluated, -⟩ := ok_of_bind done
    obtain ⟨entry, made⟩ := map_m_ok_total.mp ⟨keyed, evaluated⟩ row member
    obtain ⟨values, own, -⟩ := ok_of_map made
    exact ⟨values, own⟩
  · intro each
    obtain ⟨keyed, evaluated⟩ := map_m_ok_total.mpr fun row member =>
      show ∃ entry, (query.keysIn output row).map (·, row) = .ok entry by
        obtain ⟨values, own⟩ := each row member
        exact ⟨(values, row), by rw [own]; rfl⟩
    exact ⟨_, bind_of_ok evaluated rfl⟩

theorem keys_typed (ordered : query.orderBy.mapM (analyzeOrder output) = .ok analyzed.orderBy) :
    ∃ types : List (Option DataType), (∀ type ∈ types, DataType.Sortable type) ∧ ∀ (row : Row) values, row.Fits output →
      analyzed.keysIn output row = .ok values → List.Forall₂ Value.Of types values := by
  have each : ∀ item ∈ analyzed.orderBy, ∃ type, item.key.type output = .ok type ∧ DataType.Sortable type := by
    intro item among
    obtain ⟨given, -, done⟩ := map_m_ok_origin ordered item among
    obtain ⟨key, -, done⟩ := ok_of_bind done
    obtain ⟨type, typed, done⟩ := ok_of_bind done
    split at done
    · cases done
    · cases done
    · rename_i noIds noStrings
      cases done
      exact ⟨type, typed, noIds, noStrings⟩
  obtain ⟨types, typed⟩ := map_m_ok_total.mpr fun item among => (each item among).imp fun _ own => own.1
  refine ⟨types, fun type member => ?_, fun row values fits evaluated => ?_⟩
  · obtain ⟨item, among, own⟩ := map_m_ok_origin typed type member
    obtain ⟨type', own', sortable⟩ := each item among
    cases own.symm.trans own'
    exact sortable
  · refine forall₂_join (map_m_ok_iff.mp typed) (map_m_ok_iff.mp evaluated) fun item type _ v _ own valued => ?_
    exact Expr.type_sound fits item.key type v own valued

-- Rows that are sorted by keys that passed the analysis are in their order.
theorem sorted_in_order (ordered : query.orderBy.mapM (analyzeOrder output) = .ok analyzed.orderBy)
    (fits : ∀ row ∈ rows, row.Fits output) {sorted : List Row} (done : analyzed.sorted output rows = .ok sorted) :
    analyzed.InOrder output sorted := by
  obtain ⟨types, sortable, typed⟩ := keys_typed ordered
  obtain ⟨cmp, trans, same⟩ := OrderItem.compare_keys_ordered analyzed.orderBy types sortable
  obtain ⟨keyed, evaluated, done⟩ := ok_of_bind done
  obtain ⟨valued, whole⟩ := keyed_entries evaluated
  rw [← Except.ok.inj done]
  have own (entry : List Value × Row) (member : entry ∈ keyed) : List.Forall₂ Value.Of types entry.1 :=
    typed entry.2 entry.1 (fits _ (whole ▸ List.mem_map_of_mem member)) (valued entry member)
  have agrees (a : List Value × Row) (member : a ∈ keyed) (b : List Value × Row) (member' : b ∈ keyed) :
      (OrderItem.compareKeys analyzed.orderBy a.1 b.1 != .gt) = (cmp a.1 b.1).isLE := by
    rw [same a.1 b.1 (own a member) (own b member')]
    cases cmp a.1 b.1 <;> rfl
  have arranged := List.map_mergeSort (f := Prod.fst) (s := fun as bs => (cmp as bs).isLE) agrees
  refine ⟨(keyed.mergeSort fun a b => OrderItem.compareKeys analyzed.orderBy a.1 b.1 != .gt).map (·.1), ?_, ?_⟩
  · rw [map_m_ok_iff, List.forall₂_map_left_iff, List.forall₂_map_right_iff, List.forall₂_same]
    exact fun entry member => valued entry ((List.mergeSort_perm keyed _).mem_iff.mp member)
  · rw [arranged]
    have total (as bs : List Value) : ((cmp as bs).isLE || (cmp bs as).isLE) = true := by
      have swapped : cmp bs as = (cmp as bs).swap := Std.OrientedCmp.eq_swap
      rw [swapped]
      cases cmp as bs <;> rfl
    have pairwise := List.pairwise_mergeSort (fun _ _ _ => Std.TransCmp.isLE_trans) total (keyed.map (·.1))
    refine pairwise.imp_of_mem fun {as bs} member member' less => ?_
    obtain ⟨a, among, rfl⟩ := List.mem_map.mp ((List.mergeSort_perm _ _).mem_iff.mp member)
    obtain ⟨b, among', rfl⟩ := List.mem_map.mp ((List.mergeSort_perm _ _).mem_iff.mp member')
    rw [same a.1 b.1 (own a among) (own b among')]
    intro greater
    rw [greater] at less
    cases less

-- The order is that of the keys as they are written, where these have values.
theorem in_order_written (ordered : query.orderBy.mapM (analyzeOrder output) = .ok analyzed.orderBy)
    (fits : ∀ row ∈ rows, row.Fits output) (arranged : analyzed.InOrder output rows)
    (valued : ∀ row ∈ rows, ∃ values, query.keysIn output row = .ok values) : query.InOrder output rows := by
  have items : List.Forall₂ (fun (item written : OrderItem) => written.key.qualify output = .ok item.key ∧
      item.descending = written.descending) analyzed.orderBy query.orderBy := by
    refine (map_m_ok_iff.mp ordered).flip.imp fun item written done => ?_
    obtain ⟨qualified, direction, -⟩ := order_typed done
    exact ⟨qualified, direction⟩
  have compared (items items' : List OrderItem) (as bs : List Value)
      (same : List.Forall₂ (fun (item item' : OrderItem) => item.descending = item'.descending) items items') :
      OrderItem.compareKeys items as bs = OrderItem.compareKeys items' as bs := by
    induction same generalizing as bs with
    | nil => rfl
    | @cons item item' items items' direction _ ih =>
        cases as with
        | nil => rfl
        | cons a as =>
            cases bs with
            | nil => rfl
            | cons b bs =>
                have first : item.compareValues a b = item'.compareValues a b := by
                  rw [OrderItem.compareValues, OrderItem.compareValues, direction]
                rw [OrderItem.compareKeys, OrderItem.compareKeys, first, ih]
  obtain ⟨keyed, evaluated, pairwise⟩ := arranged
  refine ⟨keyed, map_m_ok_iff.mpr (forall₂_imp_of_mem (map_m_ok_iff.mp evaluated).flip ?_).flip, ?_⟩
  · intro own row member done
    obtain ⟨values, written⟩ := valued row member
    have known : analyzed.keysIn output row = .ok values := by
      refine map_m_ok_iff.mpr (forall₂_join items.flip (map_m_ok_iff.mp written) ?_)
      rintro given item - v - ⟨qualified, -⟩ evaluated
      exact Expr.qualify_value (fits row member) given.key item.key qualified v evaluated
    exact written.trans (known.symm.trans done)
  · exact pairwise.imp fun {as bs} least => compared _ _ as bs (items.imp fun _ _ own => own.2) ▸ least

end Select

end ShardQuery
