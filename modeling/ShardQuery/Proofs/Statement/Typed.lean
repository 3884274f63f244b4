import ShardQuery.Proofs.Outcome
import ShardQuery.Proofs.Statement.Meaning
/-!
Types of expressions and of their values. Main statement: on a row that fits its columns an expression has a value of
the type that the analysis finds for it, or null.
-/

set_option autoImplicit false

namespace ShardQuery

-- Null, or a value of the type. Where there is no type, it can only be null.
def Value.Of (type : Option DataType) (v : Value) : Prop := v = .null ∨ v.dataType? = type

def Row.Fits (row : Row) (schema : Schema) : Prop :=
  List.Forall₂ (fun v (column : Column) => v.Of (some column.type)) row.values schema.columns

theorem Row.fits_column {row : Row} {schema : Schema} (fits : row.Fits schema) (i : Nat) (v : Value)
    (held : row.get? i = some v) : ∃ column, schema.get? i = some column ∧ v.Of (some column.type) :=
  forall₂_at fits i v held

theorem PlanExpr.column_of_ok {row : Row} {i : Nat} {v : Value} (read : columnOf row i = .ok v) :
    row.get? i = some v := by
  rw [columnOf] at read
  split at read
  · rename_i held
    exact Except.ok.inj read ▸ held
  · cases read

namespace Value

theorem bool_of (b : Bool) : Of (some .bool) (.bool b) := .inr rfl

theorem connect_of (op : BinaryOp) (left right : Option Bool) : (PlanExpr.connect op left right).Of (some .bool) := by
  rw [PlanExpr.connect]
  split
  · exact bool_of _
  · split
    · exact bool_of _
    · exact .inl rfl

theorem negate_of {v negated : Value} (done : PlanExpr.negate v = .ok negated) : negated.Of (some .bool) := by
  cases v with
  | null => exact .inl (Except.ok.inj done).symm
  | bool b => exact .inr (Except.ok.inj done ▸ rfl)
  | int | id | decimal | string | timestamp | idSet | stringSet => cases done

theorem compare_of {op : BinaryOp} {left right v : Value} (done : PlanExpr.compare op left right = .ok v) :
    v.Of (some .bool) := by
  rw [PlanExpr.compare] at done
  split at done
  · exact .inr (Except.ok.inj done ▸ rfl)
  · cases done

-- What the type of a number says of it.
theorem scaled_type {v : Value} {number : Scaled} {type : DataType} (scaled : v.scaled? = some number)
    (typed : v.dataType? = some type) :
    Expr.scale? type = some number.scale ∧ Expr.isDecimalType type = PlanExpr.isDecimal v := by
  cases v with
  | int | id | decimal =>
      cases scaled
      cases typed
      exact ⟨rfl, rfl⟩
  | null | bool | string | timestamp | idSet | stringSet => cases scaled

theorem compute_scale {op : BinaryOp} {a b : Scaled} {unscaled : Int} {scale : UInt8}
    (computed : PlanExpr.compute? op a b = some (unscaled, scale)) :
    if op = .multiply then a.scale.toNat + b.scale.toNat ≤ DataType.maxScale.toNat ∧
        scale = UInt8.ofNat (a.scale.toNat + b.scale.toNat)
      else scale = if a.scale ≤ b.scale then b.scale else a.scale := by
  cases op with
  | multiply =>
      rw [if_pos rfl]
      simp only [PlanExpr.compute?] at computed
      split at computed
      · cases computed
      · rename_i small
        obtain ⟨_, -, computed⟩ := Option.map_eq_some_iff.mp computed
        cases computed
        exact ⟨Nat.le_of_not_lt small, rfl⟩
  | eq | notEq | lt | ltEq | gt | gtEq | and | or | plus | minus =>
      obtain ⟨⟨x, y, common⟩, aligned, found⟩ := Option.bind_eq_some_iff.mp computed
      obtain ⟨_, -, aligned⟩ := Option.bind_eq_some_iff.mp aligned
      obtain ⟨_, -, aligned⟩ := Option.map_eq_some_iff.mp aligned
      obtain ⟨_, -, found⟩ := Option.map_eq_some_iff.mp found
      cases found
      cases aligned
      rfl

theorem arithmetic_of {op : BinaryOp} {left right v : Value} {a b : DataType} {type : Option DataType}
    (typed : left.dataType? = some a) (typed' : right.dataType? = some b)
    (known : Expr.arithmeticType? op (some a) (some b) = some type)
    (done : PlanExpr.arithmetic op left right = .ok v) : v.Of type := by
  rw [PlanExpr.arithmetic] at done
  split at done
  · rename_i x y scaled scaled'
    obtain ⟨scale, decimal⟩ := scaled_type scaled typed
    obtain ⟨scale', decimal'⟩ := scaled_type scaled' typed'
    simp only [Expr.arithmeticType?, scale, scale', decimal, decimal', Option.bind_some] at known
    dsimp only at done
    split at done
    · rename_i result computed
      cases done
      obtain ⟨⟨unscaled, common⟩, number, fitted⟩ := Option.bind_eq_some_iff.mp computed
      obtain ⟨word, -, rfl⟩ := Option.map_eq_some_iff.mp fitted
      have scaling := compute_scale number
      cases whole : PlanExpr.isDecimal left || PlanExpr.isDecimal right with
      | false =>
          rw [whole] at known
          exact .inr (Option.some.inj known)
      | true =>
          rw [whole] at known
          change (if op = .multiply then _ else _) = _ at known
          by_cases product : op = .multiply
          · rw [if_pos product] at known scaling
            rw [if_pos scaling.1] at known
            exact .inr (Option.some.inj known ▸ scaling.2 ▸ rfl)
          · rw [if_neg product] at known scaling
            exact .inr (Option.some.inj known ▸ scaling ▸ rfl)
    · cases done
  · cases done

theorem apply_of {op : BinaryOp} {left right v : Value} {a b type : Option DataType} (typed : left.Of a)
    (typed' : right.Of b) (computes : op.isComparison = false) (known : Expr.arithmeticType? op a b = some type)
    (done : PlanExpr.apply op left right = .ok v) : v.Of type := by
  rw [PlanExpr.apply, computes] at done
  split at done
  · exact .inl (Except.ok.inj done).symm
  · rename_i given
    change PlanExpr.arithmetic op left right = .ok v at done
    rcases typed with rfl | typed
    · exact absurd rfl given
    rcases typed' with rfl | typed'
    · exact absurd (Bool.or_true _) given
    cases first : left.dataType? with
    | none =>
        cases left with
        | null => exact absurd rfl given
        | bool | int | id | decimal | string | timestamp | idSet | stringSet => cases first
    | some x =>
        cases second : right.dataType? with
        | none =>
            cases right with
            | null => exact absurd (Bool.or_true _) given
            | bool | int | id | decimal | string | timestamp | idSet | stringSet => cases second
        | some y =>
            rw [← typed, ← typed', first, second] at known
            exact arithmetic_of first second known done

theorem apply_comparison_of {op : BinaryOp} {left right v : Value} (compares : op.isComparison = true)
    (done : PlanExpr.apply op left right = .ok v) : v.Of (some .bool) := by
  rw [PlanExpr.apply, compares] at done
  split at done
  · exact .inl (Except.ok.inj done).symm
  · exact compare_of done

end Value

namespace Expr

variable {schema : Schema} {row : Row} {left right : Expr} {op : BinaryOp}

-- Both operands of a comparison or computation have values, and those of a logical one as far as they are needed.
inductive Operands (schema : Schema) (row : Row) (left : Expr) (op : BinaryOp) (right : Expr) : Value → Prop
  | decided (l : Value) (logical : op.isLogical = true) (first : left.valueIn schema row = .ok l)
      (decides : PlanExpr.truth l = .ok (some (PlanExpr.dominant op))) :
      Operands schema row left op right (.bool (PlanExpr.dominant op))
  | connected (l r : Value) (a b : Option Bool) (logical : op.isLogical = true)
      (first : left.valueIn schema row = .ok l) (truth : PlanExpr.truth l = .ok a)
      (open' : a ≠ some (PlanExpr.dominant op)) (second : right.valueIn schema row = .ok r)
      (truth' : PlanExpr.truth r = .ok b) : Operands schema row left op right (PlanExpr.connect op a b)
  | applied (l r v : Value) (plain : op.isLogical = false) (first : left.valueIn schema row = .ok l)
      (second : right.valueIn schema row = .ok r) (done : PlanExpr.apply op l r = .ok v) :
      Operands schema row left op right v

theorem binary_value_iff {v : Value} :
    (binary left op right).valueIn schema row = .ok v ↔ Operands schema row left op right v := by
  constructor
  · intro evaluated
    obtain ⟨l, first, evaluated⟩ := ok_of_bind evaluated
    cases logical : op.isLogical with
    | true =>
        rw [logical] at evaluated
        obtain ⟨a, truth, evaluated⟩ := ok_of_bind evaluated
        split at evaluated
        · rename_i decides
          cases evaluated
          exact .decided l logical first (decides ▸ truth)
        · rename_i open'
          obtain ⟨r, second, evaluated⟩ := ok_of_bind evaluated
          obtain ⟨b, truth', rfl⟩ := ok_of_map evaluated
          exact .connected l r a b logical first truth open' second truth'
    | false =>
        rw [logical] at evaluated
        obtain ⟨r, second, done⟩ := ok_of_bind evaluated
        exact .applied l r v logical first second done
  · intro operands
    rw [valueIn]
    cases operands with
    | decided l logical first decides =>
        rw [first, logical]
        change (PlanExpr.truth l).bind _ = _
        rw [decides]
        exact if_pos rfl
    | connected l r a b logical first truth open' second truth' =>
        rw [first, logical]
        change (PlanExpr.truth l).bind _ = _
        rw [truth]
        change (if _ then _ else _) = _
        rw [if_neg open', second]
        change (PlanExpr.truth r).map _ = _
        rw [truth']
        rfl
    | applied l r _ plain first second done =>
        rw [first, plain]
        change ((right.valueIn schema row).bind _) = _
        rw [second]
        exact done

-- On a row that fits, an expression has a value of its type or is null.
theorem type_sound (fits : row.Fits schema) (e : Expr) (type : Option DataType) (v : Value)
    (typed : e.type schema = .ok type) (evaluated : e.valueIn schema row = .ok v) : v.Of type := by
  induction e generalizing type v with
  | column table name =>
      obtain ⟨i, resolved, typed⟩ := ok_of_bind typed
      obtain ⟨j, resolved', read⟩ := ok_of_bind evaluated
      rw [resolved] at resolved'
      cases resolved'
      cases typed
      obtain ⟨column, declared, suits⟩ := Row.fits_column fits i v (PlanExpr.column_of_ok read)
      rw [declared]
      exact suits
  | literal w =>
      cases typed
      cases evaluated
      exact .inr rfl
  | not e ih =>
      obtain ⟨inner, typedInner, typed⟩ := ok_of_bind typed
      obtain ⟨w, -, negated⟩ := ok_of_bind evaluated
      split at typed
      · exact Except.ok.inj typed ▸ Value.negate_of negated
      · exact Except.ok.inj typed ▸ Value.negate_of negated
      · cases typed
  | isNull e negated ih =>
      obtain ⟨_, -, typed⟩ := ok_of_bind typed
      obtain ⟨w, -, rfl⟩ := ok_of_map evaluated
      exact Except.ok.inj typed ▸ Value.bool_of _
  | binary left op right ih ih' =>
      obtain ⟨a, typedLeft, typed⟩ := ok_of_bind typed
      obtain ⟨b, typedRight, typed⟩ := ok_of_bind typed
      have comparison (compares : op.isComparison = true) : type = some .bool := by
        rw [if_pos compares] at typed
        split at typed
        · split at typed
          · exact (Except.ok.inj typed).symm
          · cases typed
        · exact (Except.ok.inj typed).symm
      have logic (logical : op.isLogical = true) : type = some .bool := by
        cases compares : op.isComparison with
        | true => exact comparison compares
        | false =>
            rw [compares, logical] at typed
            obtain ⟨_, -, typed⟩ := ok_of_bind typed
            obtain ⟨_, -, typed⟩ := ok_of_bind typed
            exact (Except.ok.inj typed).symm
      cases binary_value_iff.mp evaluated with
      | decided l logical first decides => exact logic logical ▸ Value.bool_of _
      | connected l r x y logical => exact logic logical ▸ Value.connect_of op x y
      | applied l r _ plain first second done =>
          cases compares : op.isComparison with
          | true => exact comparison compares ▸ Value.apply_comparison_of compares done
          | false =>
              rw [if_neg (Bool.eq_false_iff.mp compares), if_neg (Bool.eq_false_iff.mp plain)] at typed
              split at typed
              · rename_i found known
                cases typed
                exact Value.apply_of (ih a l typedLeft first) (ih' b r typedRight second) compares known done
              · cases typed

end Expr

end ShardQuery
