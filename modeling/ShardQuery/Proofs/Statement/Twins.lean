import ShardQuery.Proofs.Statement.Evaluated
import ShardQuery.Proofs.Value.Alike
/-!
Equal values of one type. Main statements: they are the same, sets aside, and no expression tells them apart: on rows of
such values it has a value on both or on neither.
-/

set_option autoImplicit false

namespace ShardQuery

namespace Value

-- The same value, or two sets.
def Twins (v w : Value) : Prop := v = w ∨ (v.isSet = true ∧ w.isSet = true)

variable {v w l r l' r' : Value}

-- Equal values of one type.
theorem canonical_twins {type : Option DataType} (suits : v.Of type) (suits' : w.Of type)
    (same : v.canonical = w.canonical) : v.Twins w := by
  rcases suits with rfl | typed
  · exact .inl (null_canonical same.symm).symm
  rcases suits' with rfl | typed'
  · exact .inl (null_canonical same)
  have types : v.dataType? = w.dataType? := typed.trans typed'.symm
  cases v with
  | null => exact .inl (null_of_type types.symm).symm
  | bool a =>
      cases w <;> cases types
      exact .inl (congrArg Value.bool (bool_inj same))
  | int n =>
      cases w <;> cases types
      exact .inl (congrArg Value.int (Bytes.signed64_inj (List.cons.inj same).2))
  | id n =>
      cases w <;> cases types
      exact .inl (congrArg Value.id (Bytes.word64_inj (List.cons.inj same).2))
  | decimal n scale =>
      cases w <;> cases types
      exact .inl (congrArg (Value.decimal · scale) (decimal_inj same))
  | string s =>
      cases w <;> cases types
      exact .inl (congrArg Value.string (string_inj (List.cons.inj same).2))
  | timestamp t =>
      cases w <;> cases types
      exact .inl (congrArg Value.timestamp (Bytes.signed64_inj (List.cons.inj same).2))
  | idSet members =>
      cases w <;> cases types
      exact .inr ⟨rfl, rfl⟩
  | stringSet members =>
      cases w <;> cases types
      exact .inr ⟨rfl, rfl⟩

theorem twins_null (twins : v.Twins w) : v.isNull = w.isNull := by
  rcases twins with rfl | ⟨set, set'⟩
  · rfl
  · cases v <;> cases set <;> cases w <;> cases set' <;> rfl

theorem twins_agree {x y : Outcome Value} (same : x = y) : Agree Twins x y := by
  refine agree_imp (agree_of_eq same) fun v w _ _ same => .inl same

-- An operator that is not logical has no value on a set, unless the other operand is null.
theorem apply_set (op : BinaryOp) (set : l.isSet = true ∨ r.isSet = true) :
    PlanExpr.apply op l r = .ok .null ∧ (l.isNull || r.isNull) = true ∨
      (∃ e, PlanExpr.apply op l r = .error e) ∧ (l.isNull || r.isNull) = false := by
  rw [PlanExpr.apply]
  cases given : l.isNull || r.isNull with
  | true => exact .inl ⟨rfl, rfl⟩
  | false =>
      refine .inr ⟨?_, rfl⟩
      rw [Bool.or_eq_false_iff] at given
      have number (v : Value) (set : v.isSet = true) : v.scaled? = none := by
        cases v <;> cases set <;> rfl
      rw [if_neg Bool.false_ne_true]
      split
      · have unordered : l.order? r = none := by
          rcases set with set | set
          · cases l <;> cases set <;> cases r <;> first | rfl | cases given.2
          · cases r <;> cases set <;> cases l <;> first | rfl | cases given.1
        exact ⟨_, by rw [PlanExpr.compare, unordered]⟩
      · refine ⟨.typeMismatch s!"cannot compute {l.text} {op.text} {r.text}", ?_⟩
        rw [PlanExpr.arithmetic]
        rcases set with set | set
        · rw [number l set]
        · rw [number r set]
          cases l.scaled? <;> rfl

theorem apply_twins (op : BinaryOp) (twins : l.Twins l') (twins' : r.Twins r') :
    Agree Twins (PlanExpr.apply op l r) (PlanExpr.apply op l' r') := by
  have nulls : (l.isNull || r.isNull) = (l'.isNull || r'.isNull) := by rw [twins_null twins, twins_null twins']
  have sets (set : l.isSet = true ∨ r.isSet = true) (set' : l'.isSet = true ∨ r'.isSet = true) :
      Agree Twins (PlanExpr.apply op l r) (PlanExpr.apply op l' r') := by
    rcases apply_set op set with ⟨done, null⟩ | ⟨⟨e, failed⟩, given⟩
    · rcases apply_set op set' with ⟨done', -⟩ | ⟨-, given'⟩
      · exact twins_agree (done.trans done'.symm)
      · rw [nulls, given'] at null
        cases null
    · rcases apply_set op set' with ⟨-, null'⟩ | ⟨⟨e', failed'⟩, -⟩
      · rw [nulls, null'] at given
        cases given
      · rw [failed, failed']
        trivial
  rcases twins with rfl | ⟨set, set'⟩
  · rcases twins' with rfl | ⟨set, set'⟩
    · exact twins_agree rfl
    · exact sets (.inr set) (.inr set')
  · exact sets (.inl set) (.inl set')

theorem truth_twins (twins : v.Twins w) : Agree Eq (PlanExpr.truth v) (PlanExpr.truth w) := by
  rcases twins with rfl | ⟨set, set'⟩
  · exact agree_of_eq rfl
  · cases v <;> cases set <;> cases w <;> cases set' <;> trivial

theorem negate_twins (twins : v.Twins w) : Agree Twins (PlanExpr.negate v) (PlanExpr.negate w) := by
  rcases twins with rfl | ⟨set, set'⟩
  · exact twins_agree rfl
  · cases v <;> cases set <;> cases w <;> cases set' <;> trivial

end Value

namespace Row

-- Rows of the same values, sets aside.
def Twins (a b : Row) : Prop := List.Forall₂ Value.Twins a.values b.values

variable {a b : Row} {schema : Schema}

-- Equal rows of the same columns.
theorem beq_twins (fits : a.Fits schema) (fits' : b.Fits schema) (equal : (a == b) = true) : a.Twins b := by
  have each (vs ws : List Value) (columns : List Column)
      (fits : List.Forall₂ (fun v (column : Column) => v.Of (some column.type)) vs columns)
      (fits' : List.Forall₂ (fun w (column : Column) => w.Of (some column.type)) ws columns)
      (same : vs.map Value.canonical = ws.map Value.canonical) : List.Forall₂ Value.Twins vs ws := by
    induction fits generalizing ws with
    | nil =>
        cases fits'
        exact .nil
    | cons suits _ ih =>
        cases fits' with
        | cons suits' others =>
            obtain ⟨first, rest⟩ := List.cons.inj same
            exact .cons (Value.canonical_twins suits suits' first) (ih _ others rest)
  exact each a.values b.values schema.columns fits fits' ((beq_iff_map_canonical a b).mp equal)

end Row

variable {a b : Row} {schema : Schema}

-- No expression tells rows of the same values apart.
theorem Expr.value_twins (twins : a.Twins b) (e : Expr) : Agree Value.Twins (e.valueIn schema a) (e.valueIn schema b) := by
  induction e with
  | column table name =>
      refine agree_bind (agree_of_eq rfl) fun i j _ _ same => ?_
      subst same
      rw [PlanExpr.columnOf, PlanExpr.columnOf, Row.get?, Row.get?]
      cases held : a.values[i]? with
      | some v =>
          obtain ⟨w, held', own⟩ := forall₂_at twins i v held
          rw [held']
          exact own
      | none =>
          rw [List.getElem?_eq_none_iff] at held
          rw [List.getElem?_eq_none (twins.length_eq ▸ held)]
          trivial
  | literal v => exact .inl rfl
  | not e ih => exact agree_bind ih fun _ _ _ _ own => Value.negate_twins own
  | isNull e negated ih =>
      refine agree_map ih fun v w _ _ own => .inl ?_
      rw [Value.twins_null own]
  | binary left op right ih ih' =>
      refine agree_bind ih fun l l' _ _ own => ?_
      split
      · refine agree_bind (Value.truth_twins own) fun t t' _ _ same => ?_
        subst same
        split
        · exact .inl rfl
        · refine agree_bind ih' fun r r' _ _ own' => agree_map (Value.truth_twins own') fun t' t'' _ _ same => ?_
          subst same
          exact .inl rfl
      · exact agree_bind ih' fun r r' _ _ own' => Value.apply_twins op own own'

end ShardQuery
