import ShardQuery.Proofs.Statement.Evaluated
/-!
Expressions that have a type. Main statement: they can be bound, and on a row of the declared types what they are bound
to has a value of that very type, or null, or fails by an overflow.
-/

set_option autoImplicit false

namespace ShardQuery

namespace Expr

variable {schema : Schema} {row : Row}

-- Finding the type of an expression and binding it look the same names up.
theorem type_binds (e : Expr) (type : Option DataType) (typed : e.type schema = .ok type) :
    ∃ bound, e.bind schema = .ok bound := by
  induction e generalizing type with
  | column table name =>
      obtain ⟨i, resolved, -⟩ := ok_of_bind typed
      exact ⟨.column i, bind_of_ok resolved rfl⟩
  | literal v => exact ⟨.literal v, rfl⟩
  | not e ih =>
      obtain ⟨inner, typed, -⟩ := ok_of_bind typed
      obtain ⟨bound, binds⟩ := ih inner typed
      exact ⟨.not bound, bind_of_ok binds rfl⟩
  | isNull e negated ih =>
      obtain ⟨inner, typed, -⟩ := ok_of_bind typed
      obtain ⟨bound, binds⟩ := ih inner typed
      exact ⟨.isNull bound negated, bind_of_ok binds rfl⟩
  | binary left op right ih ih' =>
      obtain ⟨a, typed, rest⟩ := ok_of_bind typed
      obtain ⟨b, typed', -⟩ := ok_of_bind rest
      obtain ⟨l, binds⟩ := ih a typed
      obtain ⟨r, binds'⟩ := ih' b typed'
      exact ⟨.binary l op r, bind_of_ok binds (bind_of_ok binds' rfl)⟩

-- A value of the type is null, or there is a type and it is exactly the value's.
theorem typed_evaluates (columns : schema.Narrow) (fits : row.Fits schema) (e : Expr) (literals : e.Narrow)
    (type : Option DataType) (typed : e.type schema = .ok type) :
    ∃ bound, e.bind schema = .ok bound ∧ ∀ outer : Option Row,
      (∃ v, bound.eval row outer = .ok v ∧ (v = .null ∨ ∃ t, type = some t ∧ v.dataType? = some t)) ∨
        ∃ (op : BinaryOp) (left right : Value),
          bound.eval row outer = .error (.execution s!"overflow computing {left.text} {op.text} {right.text}") := by
  obtain ⟨bound, binds⟩ := type_binds e type typed
  refine ⟨bound, binds, fun outer => ?_⟩
  have same : bound.eval row outer = e.valueIn schema row := bind_value e bound binds
  have comes := evaluates columns fits e literals type typed
  rw [← same] at comes
  cases evaluated : bound.eval row outer with
  | ok v =>
      rw [evaluated] at comes
      refine .inl ⟨v, rfl, ?_⟩
      rcases comes with null | own
      · exact .inl null
      · cases known : v.dataType? with
        | none => exact .inl (Value.null_of_type known)
        | some t => exact .inr ⟨t, own.symm.trans known, rfl⟩
  | error e =>
      rw [evaluated] at comes
      obtain ⟨op, left, right, rfl⟩ := comes
      exact .inr ⟨op, left, right, rfl⟩

-- A price of two digits times a quantity, beside a condition that stops at its left operand.
theorem priced_evaluates :
    let schema : Schema := ⟨[.plain "price" (.decimal 2), .plain "quantity" .int, .plain "open" .bool]⟩
    let row : Row := ⟨[.decimal 1250 2, .int 3, .null]⟩
    let total : Expr := .binary (.column none "price") .multiply (.column none "QUANTITY")
    let wanted : Expr := .binary (.binary total .gt (.literal (.id 37))) .or (.not (.column none "open"))
    total.type schema = .ok (some (.decimal 2)) ∧ wanted.type schema = .ok (some .bool) ∧
      (∃ bound, total.bind schema = .ok bound ∧ bound.eval row none = .ok (.decimal 3750 2) ∧ ∀ outer : Option Row,
        (∃ v, bound.eval row outer = .ok v ∧ (v = .null ∨ ∃ t, some (DataType.decimal 2) = some t ∧ v.dataType? = some t)) ∨
          ∃ (op : BinaryOp) (left right : Value),
            bound.eval row outer = .error (.execution s!"overflow computing {left.text} {op.text} {right.text}")) ∧
      ∃ bound, wanted.bind schema = .ok bound ∧ bound.eval row none = .ok (.bool true) ∧ ∀ outer : Option Row,
        (∃ v, bound.eval row outer = .ok v ∧ (v = .null ∨ ∃ t, some DataType.bool = some t ∧ v.dataType? = some t)) ∨
          ∃ (op : BinaryOp) (left right : Value),
            bound.eval row outer = .error (.execution s!"overflow computing {left.text} {op.text} {right.text}") := by
  intro schema row total wanted
  have columns : schema.Narrow := by
    rw [Schema.Narrow]
    decide +kernel
  have fits : row.Fits schema := .cons (.inr rfl) (.cons (.inr rfl) (.cons (.inl rfl) .nil))
  have literal : Narrowed (some .id) := by
    intro t same
    cases same
    decide
  have typed : total.type schema = .ok (some (.decimal 2)) := by decide +kernel
  have typed' : wanted.type schema = .ok (some .bool) := by decide +kernel
  obtain ⟨bound, binds, evaluated⟩ := typed_evaluates columns fits total ⟨trivial, trivial⟩ _ typed
  obtain ⟨bound', binds', evaluated'⟩ :=
    typed_evaluates columns fits wanted ⟨⟨⟨trivial, trivial⟩, literal⟩, trivial⟩ _ typed'
  have same : bound.eval row none = .ok (.decimal 3750 2) := by
    rw [bind_value total bound binds]
    decide +kernel
  have same' : bound'.eval row none = .ok (.bool true) := by
    rw [bind_value wanted bound' binds']
    decide +kernel
  exact ⟨typed, typed', ⟨bound, binds, same, evaluated⟩, bound', binds', same', evaluated'⟩

end Expr

end ShardQuery
