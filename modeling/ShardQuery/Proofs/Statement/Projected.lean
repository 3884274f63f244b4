import ShardQuery.Proofs.Statement.Qualified
/-!
Projections and conditions. Main statements: what the analysis makes of them can be bound, gives on every row the values
that they mean, and these are of the types of their columns.
-/

set_option autoImplicit false

namespace ShardQuery

variable {input output : Schema} {row : Row}

namespace SelectItem

-- An analyzed item stands for one value.
def Gives (schema : Schema) (row : Row) (item : SelectItem) (v : Value) : Prop := item.valuesIn schema row = .ok [v]

theorem expr_gives {e : Expr} {label : Option String} {v : Value} (evaluated : e.valueIn input row = .ok v) :
    (SelectItem.expr e label).Gives input row v := by
  rw [Gives, valuesIn, evaluated]
  rfl

theorem gives_expr {item : SelectItem} {v : Value} {column : Column} (gives : item.Gives input row v)
    (declared : item.column input = .ok column) : ∃ e label, item = .expr e label ∧ e.valueIn input row = .ok v := by
  cases item with
  | wildcard => cases declared
  | expr e label =>
      obtain ⟨w, evaluated, same⟩ := ok_of_map gives
      cases same
      exact ⟨e, label, rfl, evaluated⟩

-- The columns of a wildcard give their values, where their names are resolved.
theorem wildcard_gives (relation : Option String) (fits : row.Fits input)
    (resolved : ∀ column ∈ input.columns.filter (wildcardTakes relation),
      ∃ i, input.resolve column.relation column.name = .ok i) :
    List.Forall₂ (Gives input row)
      ((input.columns.filter (wildcardTakes relation)).map fun column => .expr (.ofColumn column) none)
      (((input.columns.zip row.values).filter fun entry => wildcardTakes relation entry.1).map (·.2)) := by
  have paired : input.columns.filter (wildcardTakes relation) =
      ((input.columns.zip row.values).filter fun entry => wildcardTakes relation entry.1).map (·.1) := by
    have columns : (input.columns.zip row.values).map (·.1) = input.columns :=
      List.map_fst_zip (Nat.le_of_eq fits.length_eq.symm)
    rw [← columns, List.filter_map, columns]
    rfl
  rw [paired] at resolved ⊢
  rw [List.map_map, List.forall₂_map_left_iff, List.forall₂_map_right_iff, List.forall₂_same]
  intro entry member
  obtain ⟨listed, -⟩ := List.mem_filter.mp member
  obtain ⟨i, found⟩ := List.mem_iff_getElem?.mp listed
  obtain ⟨held, valued⟩ := List.getElem?_zip_eq_some.mp found
  obtain ⟨j, own⟩ := resolved entry.1 (List.mem_map_of_mem member)
  obtain rfl := ((Schema.resolve_iff _ _ j).mp own).2 i entry.1 held (Schema.matched_itself entry.1)
  apply expr_gives
  rw [Expr.ofColumn, Expr.valueIn, own]
  change PlanExpr.columnOf row i = _
  rw [PlanExpr.columnOf, show row.get? i = some entry.2 from valued]

theorem column_resolved {column declared : Column} {label : Option String}
    (done : (SelectItem.expr (.ofColumn column) label).column input = .ok declared) :
    ∃ i, input.resolve column.relation column.name = .ok i := by
  obtain ⟨type, typed, -⟩ := ok_of_bind done
  obtain ⟨i, resolved, -⟩ := ok_of_bind typed
  exact ⟨i, resolved⟩

theorem expand_eq {relation : Option String} {items : List SelectItem}
    (done : expandWildcard relation input = .ok items) :
    items = (input.columns.filter (wildcardTakes relation)).map fun column => .expr (.ofColumn column) none := by
  rw [expandWildcard.eq_def] at done
  dsimp only at done
  split at done
  · split at done
    · cases done
    · exact (Except.ok.inj done).symm
  · exact (Except.ok.inj done).symm

-- The items that an item is expanded to give the values that it stands for.
theorem analyze_gives (fits : row.Fits input) (item : SelectItem) (items : List SelectItem)
    (done : item.analyze input = .ok items) (declared : ∀ expanded ∈ items, ∃ column, expanded.column input = .ok column)
    (values : List Value) (evaluated : item.valuesIn input row = .ok values) :
    List.Forall₂ (Gives input row) items values := by
  cases item with
  | wildcard relation =>
      obtain rfl := expand_eq done
      cases evaluated
      refine wildcard_gives relation fits fun column member => ?_
      obtain ⟨own, found⟩ := declared _ (List.mem_map_of_mem member)
      exact column_resolved found
  | expr e label =>
      obtain ⟨qualified, first, done⟩ := ok_of_bind done
      obtain ⟨_, -, done⟩ := ok_of_bind done
      obtain ⟨v, valued, rfl⟩ := ok_of_map evaluated
      cases done
      exact .cons (expr_gives (Expr.qualify_value fits e qualified first v valued)) .nil

theorem analyze_binds (item : SelectItem) (items : List SelectItem) (done : item.analyze input = .ok items)
    (expanded : SelectItem) (member : expanded ∈ items) (column : Column)
    (declared : expanded.column input = .ok column) : ∃ bound, expanded.bind input = .ok bound := by
  cases item with
  | wildcard relation =>
      obtain rfl := expand_eq done
      obtain ⟨own, -, rfl⟩ := List.mem_map.mp member
      obtain ⟨i, resolved⟩ := column_resolved declared
      refine ⟨.column i, ?_⟩
      rw [SelectItem.bind, Expr.ofColumn, Expr.bind, resolved]
      rfl
  | expr e label =>
      obtain ⟨qualified, first, done⟩ := ok_of_bind done
      obtain ⟨_, -, done⟩ := ok_of_bind done
      cases done
      obtain rfl := List.mem_singleton.mp member
      exact Expr.qualify_binds e qualified first

theorem gives_bound {item : SelectItem} {bound : PlanExpr} {v : Value} (done : item.bind input = .ok bound)
    (gives : item.Gives input row v) : bound.eval row none = .ok v := by
  cases item with
  | wildcard => cases done
  | expr e label =>
      obtain ⟨w, evaluated, same⟩ := ok_of_map gives
      cases same
      rw [Expr.bind_value e bound done, evaluated]

theorem of_default {type : Option DataType} {v : Value} (typed : v.Of type) : v.Of (some (type.getD .int)) := by
  cases type with
  | some type => exact typed
  | none =>
      rcases typed with null | untyped
      · exact .inl null
      · exact .inl (Value.null_of_type untyped)

-- A value of an item is of the type that its column has.
theorem column_sound (fits : row.Fits input) {item : SelectItem} {column : Column} {v : Value}
    (declared : item.column input = .ok column) (gives : item.Gives input row v) : v.Of (some column.type) := by
  obtain ⟨e, label, rfl, evaluated⟩ := gives_expr gives declared
  obtain ⟨type, typed, declared⟩ := ok_of_bind declared
  have sound := of_default (Expr.type_sound fits e type v typed evaluated)
  cases e with
  | column table name =>
      cases label with
      | none =>
          obtain ⟨i, resolved, declared⟩ := ok_of_bind declared
          obtain ⟨j, resolved', read⟩ := ok_of_bind evaluated
          rw [resolved] at resolved'
          cases resolved'
          obtain ⟨own, held, suits⟩ := Row.fits_column fits i v (PlanExpr.column_of_ok read)
          rw [held] at declared
          cases declared
          exact suits
      | some label =>
          obtain ⟨i, -, declared⟩ := ok_of_bind declared
          cases declared
          exact sound
  | literal w =>
      cases declared
      exact sound
  | binary | not | isNull =>
      cases declared
      exact sound

end SelectItem

theorem described_iff {items : List SelectItem} :
    outputSchema items input = .ok output ↔
      List.Forall₂ (fun item column => SelectItem.column input item = .ok column) items output.columns := by
  rw [← map_m_ok_iff]
  constructor
  · intro described
    obtain ⟨columns, declared, described⟩ := ok_of_bind described
    cases described
    exact declared
  · intro declared
    rw [outputSchema, declared]
    rfl

theorem described_each {items : List SelectItem} (described : outputSchema items input = .ok output) :
    ∀ item ∈ items, ∃ column, item.column input = .ok column :=
  map_m_ok_total.mp ⟨_, map_m_ok_iff.mpr (described_iff.mp described)⟩

namespace Select

variable {query : Select} {expanded : List (List SelectItem)}

-- An analyzed projection can be bound, with an expression for each column of the output.
theorem projection_binds (done : query.projection.mapM (SelectItem.analyze input) = .ok expanded)
    (described : outputSchema expanded.flatten input = .ok output) :
    ∃ exprs, expanded.flatten.mapM (SelectItem.bind input) = .ok exprs ∧ exprs.length = output.size := by
  have bound : ∀ item ∈ expanded.flatten, ∃ expr, item.bind input = .ok expr := by
    intro item member
    obtain ⟨items, among, inside⟩ := List.mem_flatten.mp member
    obtain ⟨written, -, analysis⟩ := map_m_ok_origin done items among
    obtain ⟨column, own⟩ := described_each described item member
    exact SelectItem.analyze_binds written items analysis item inside column own
  obtain ⟨exprs, binds⟩ := map_m_ok_total.mpr bound
  exact ⟨exprs, binds, (map_m_ok_iff.mp binds).length_eq.symm.trans (described_iff.mp described).length_eq⟩

theorem projection_gives (fits : row.Fits input) (done : query.projection.mapM (SelectItem.analyze input) = .ok expanded)
    (described : outputSchema expanded.flatten input = .ok output) (image : Row)
    (evaluated : query.imageIn input row = .ok image) :
    List.Forall₂ (SelectItem.Gives input row) expanded.flatten image.values := by
  obtain ⟨values, valued, rfl⟩ := ok_of_map evaluated
  apply List.rel_flatten
  refine forall₂_join (map_m_ok_iff.mp done) (map_m_ok_iff.mp valued) fun item items among own _ analysis valued => ?_
  refine SelectItem.analyze_gives fits item items analysis (fun inner inside => ?_) own valued
  exact described_each described inner (List.mem_flatten.mpr ⟨items, among, inside⟩)

-- The bound projection makes of a row what the written one means, which fits the output.
theorem projection_evaluates (fits : row.Fits input)
    (done : query.projection.mapM (SelectItem.analyze input) = .ok expanded)
    (described : outputSchema expanded.flatten input = .ok output) (exprs : List PlanExpr)
    (binds : expanded.flatten.mapM (SelectItem.bind input) = .ok exprs) (image : Row)
    (evaluated : query.imageIn input row = .ok image) :
    exprs.mapM (PlanExpr.eval row none) = .ok image.values ∧ image.Fits output := by
  have gives := projection_gives fits done described image evaluated
  constructor
  · refine map_m_ok_iff.mpr (forall₂_join (map_m_ok_iff.mp binds) gives fun item bound _ v _ own given => ?_)
    exact SelectItem.gives_bound own given
  · have typed : List.Forall₂ (fun (column : Column) v => v.Of (some column.type)) output.columns image.values :=
      forall₂_join (described_iff.mp described) gives fun item column _ v _ own given =>
        SelectItem.column_sound fits own given
    exact typed.flip

-- A condition that passes the analysis is a truth value, or null.
theorem condition_typed {condition analyzed : Expr} (done : analyzeCondition input condition = .ok analyzed) :
    condition.qualify input = .ok analyzed ∧
      ∃ type, analyzed.type input = .ok type ∧ (type = none ∨ type = some .bool) := by
  obtain ⟨qualified, first, done⟩ := ok_of_bind done
  obtain ⟨type, typed, done⟩ := ok_of_bind done
  split at done
  · cases done
    exact ⟨first, none, typed, .inl rfl⟩
  · cases done
    exact ⟨first, _, typed, .inr rfl⟩
  · cases done

-- An analyzed condition can be bound, and is true of a row exactly when the written one is.
theorem condition_holds (condition analyzed : Expr) (done : analyzeCondition input condition = .ok analyzed) :
    ∃ bound, analyzed.bind input = .ok bound ∧ ∀ row : Row, row.Fits input → ∀ v,
      condition.valueIn input row = .ok v → bound.isTrue row none = .ok (v.asBool? == some true) := by
  obtain ⟨first, type, typed, boolean⟩ := condition_typed done
  obtain ⟨bound, binds⟩ := Expr.qualify_binds condition analyzed first
  refine ⟨bound, binds, fun row fits v evaluated => ?_⟩
  have valued := Expr.qualify_value fits condition analyzed first v evaluated
  have sound := Expr.type_sound fits analyzed type v typed valued
  rw [PlanExpr.isTrue, Expr.bind_value analyzed bound binds, valued]
  cases v with
  | null => rfl
  | bool b => cases b <;> rfl
  | int | id | decimal | string | timestamp | idSet | stringSet =>
      rcases sound with impossible | typed
      · cases impossible
      · rcases boolean with rfl | rfl
        · cases typed
        · cases typed

end Select

end ShardQuery
