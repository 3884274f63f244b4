import ShardQuery.Proofs.Statement.Projected
import ShardQuery.Proofs.Statement.Sorted
import ShardQuery.Proofs.Value.Compared
/-!
Expressions on rows of the declared types. Main statements: an expression that passes the analysis has a value of its
type there, and nothing but an overflow can keep it from one; what a projection makes of such rows is of the declared
types of its columns, with nulls only where these may be null.
-/

set_option autoImplicit false

namespace ShardQuery

def EngineError.Overflows (e : EngineError) : Prop :=
  ∃ (op : BinaryOp) (left right : Value), e = .execution s!"overflow computing {left.text} {op.text} {right.text}"

namespace Value

variable {left right v : Value} {a b type : DataType}

theorem number_narrow (typed : v.dataType? = some type) (numeric : type.isNumeric = true)
    (narrow : type.scale ≤ DataType.maxScale) :
    ∃ n, v.scaled? = some n ∧ n.scale ≤ DataType.maxScale ∧ n.unscaled.natAbs < 2 ^ 64 := by
  obtain ⟨n, known⟩ := number_of_type typed numeric
  exact ⟨n, known, scale_of_type typed known ▸ narrow, scaled_small known⟩

-- Values of types that compare have an order.
theorem order_total (typed : left.dataType? = some a) (typed' : right.dataType? = some b)
    (comparable : a.comparable b = true) (narrow : a.scale ≤ DataType.maxScale) (narrow' : b.scale ≤ DataType.maxScale) :
    ∃ o, left.order? right = some o := by
  unfold DataType.comparable at comparable
  split at comparable
  · rename_i numeric
    obtain ⟨first, second⟩ := Bool.and_eq_true_iff.mp numeric
    obtain ⟨n, number, scale, small⟩ := number_narrow typed first narrow
    obtain ⟨m, number', scale', small'⟩ := number_narrow typed' second narrow'
    rw [(order_number left right n number (given_of_number number')).1, number']
    exact Scaled.order_total n m small small' scale scale'
  · rename_i mixed
    split at comparable
    · cases comparable
    · cases comparable
    · rename_i noIds noStrings
      obtain rfl := beq_iff_eq.mp comparable
      cases left with
      | null => cases typed
      | bool | string | timestamp =>
          cases typed
          cases right with
          | bool | string | timestamp => first | exact ⟨_, rfl⟩ | cases typed'
          | null | int | id | decimal | idSet | stringSet => cases typed'
      | int | id | decimal =>
          cases typed
          exact absurd rfl mixed
      | idSet =>
          cases typed
          exact absurd rfl noIds
      | stringSet =>
          cases typed
          exact absurd rfl noStrings

theorem typed_of_given {type : Option DataType} (suits : v.Of type) (given : v.isNull = false) :
    ∃ t, type = some t ∧ v.dataType? = some t := by
  rcases suits with rfl | typed
  · cases given
  · cases known : v.dataType? with
    | none =>
        rw [null_of_type known] at given
        cases given
    | some t => exact ⟨t, typed ▸ known, rfl⟩

end Value

namespace Expr

-- Types whose values compare at scales that can be brought together.
def Narrowed (type : Option DataType) : Prop := ∀ t, type = some t → t.scale ≤ DataType.maxScale

def Narrow : Expr → Prop
  | .column .. => True
  | .literal v => Narrowed v.dataType?
  | .binary left _ right => left.Narrow ∧ right.Narrow
  | .not e | .isNull e _ => e.Narrow

end Expr

def Schema.Narrow (schema : Schema) : Prop := ∀ column ∈ schema.columns, column.type.scale ≤ DataType.maxScale

namespace Expr

variable {schema : Schema} {row : Row}

theorem bool_narrowed : Narrowed (some .bool) := by
  intro t same
  cases same
  decide

theorem arithmetic_narrowed {op : BinaryOp} {a b type : Option DataType} (narrow : Narrowed a) (narrow' : Narrowed b)
    (known : arithmeticType? op a b = some type) : Narrowed type := by
  cases a with
  | none =>
      cases b with
      | none =>
          cases known
          exact narrow
      | some b =>
          obtain ⟨_, -, rfl⟩ := Option.map_eq_some_iff.mp known
          exact narrow'
  | some a =>
      cases b with
      | none =>
          obtain ⟨_, -, rfl⟩ := Option.map_eq_some_iff.mp known
          exact narrow
      | some b =>
          obtain ⟨scale, first, known⟩ := Option.bind_eq_some_iff.mp known
          obtain ⟨scale', second, known⟩ := Option.bind_eq_some_iff.mp known
          have small (type : DataType) (scale : UInt8) (own : scale? type = some scale) (narrow : Narrowed (some type)) :
              scale ≤ DataType.maxScale := by
            have bound := narrow type rfl
            cases type with
            | decimal =>
                cases own
                exact bound
            | int | id =>
                cases own
                decide
            | bool | string | timestamp | idSet | stringSet => cases own
          split at known
          · cases known
            intro t same
            cases same
            decide
          · split at known
            · dsimp only at known
              split at known
              · rename_i bound
                cases known
                intro t same
                cases same
                have bounded : scale.toNat + scale'.toNat ≤ 18 := bound
                refine UInt8.le_iff_toNat_le.mpr ?_
                change (UInt8.ofNat _).toNat ≤ 18
                rw [UInt8.toNat_ofNat_of_lt' (by change _ < 256; omega)]
                exact bounded
              · cases known
            · cases known
              intro t same
              cases same
              change (if scale ≤ scale' then scale' else scale) ≤ _
              split
              · exact small b scale' second narrow'
              · exact small a scale first narrow

-- The type of an expression is no finer than what its columns and literals are of.
theorem type_narrow (columns : schema.Narrow) (e : Expr) (literals : e.Narrow) (type : Option DataType)
    (typed : e.type schema = .ok type) : Narrowed type := by
  induction e generalizing type with
  | column table name =>
      obtain ⟨i, -, typed⟩ := ok_of_bind typed
      cases typed
      intro t same
      obtain ⟨column, held, rfl⟩ := Option.map_eq_some_iff.mp same
      exact columns column (List.mem_of_getElem? held)
  | literal v =>
      cases typed
      exact literals
  | not e ih =>
      obtain ⟨inner, -, typed⟩ := ok_of_bind typed
      split at typed
      · exact Except.ok.inj typed ▸ bool_narrowed
      · exact Except.ok.inj typed ▸ bool_narrowed
      · cases typed
  | isNull e negated ih =>
      obtain ⟨_, -, typed⟩ := ok_of_bind typed
      exact Except.ok.inj typed ▸ bool_narrowed
  | binary left op right ih ih' =>
      obtain ⟨a, typedLeft, typed⟩ := ok_of_bind typed
      obtain ⟨b, typedRight, typed⟩ := ok_of_bind typed
      split at typed
      · split at typed
        · split at typed
          · exact Except.ok.inj typed ▸ bool_narrowed
          · cases typed
        · exact Except.ok.inj typed ▸ bool_narrowed
      · split at typed
        · obtain ⟨_, -, typed⟩ := ok_of_bind typed
          obtain ⟨_, -, typed⟩ := ok_of_bind typed
          exact Except.ok.inj typed ▸ bool_narrowed
        · split at typed
          · rename_i known
            cases typed
            exact arithmetic_narrowed (ih literals.1 a typedLeft) (ih' literals.2 b typedRight) known
          · cases typed

theorem adopt_narrow {target : Option DataType} {e : Expr} (narrow : Narrowed target) (literals : e.Narrow) :
    (adopt target e).Narrow := by
  rcases adopt_cases target e with same | ⟨v, type, converted, rfl, rfl, done, same⟩
  · rwa [same]
  · rw [same]
    intro t typed
    rcases Value.convert_typed v converted type done with ⟨-, rfl⟩ | ⟨-, known⟩
    · cases typed
    · rw [known] at typed
      exact narrow t typed

theorem qualify_narrow (columns : schema.Narrow) (e qualified : Expr) (literals : e.Narrow)
    (done : e.qualify schema = .ok qualified) : qualified.Narrow := by
  induction e generalizing qualified with
  | column table name =>
      obtain ⟨i, -, done⟩ := ok_of_bind done
      split at done
      · cases done
        trivial
      · cases done
  | literal v =>
      cases done
      exact literals
  | not e ih =>
      obtain ⟨inner, first, done⟩ := ok_of_bind done
      cases done
      exact ih inner literals first
  | isNull e negated ih =>
      obtain ⟨inner, first, done⟩ := ok_of_bind done
      cases done
      exact ih inner literals first
  | binary left op right ih ih' =>
      obtain ⟨l, r, first, second, made⟩ := qualify_binary done
      have narrow := ih l literals.1 first
      have narrow' := ih' r literals.2 second
      rcases made with ⟨-, rfl⟩ | ⟨-, type, type', typed, typed', rfl⟩
      · exact ⟨narrow, narrow'⟩
      · have adopted := adopt_narrow (type_narrow columns l narrow type typed) narrow'
        exact ⟨adopt_narrow (type_narrow columns _ adopted type' typed') narrow, adopted⟩

theorem column_evaluates (fits : row.Fits schema) {i : Nat} {column : Column} (held : schema.get? i = some column) :
    ∃ v, PlanExpr.columnOf row i = .ok v ∧ v.Of (some column.type) := by
  obtain ⟨v, read, suits⟩ := forall₂_at fits.flip i column held
  refine ⟨v, ?_, suits⟩
  rw [PlanExpr.columnOf, show row.get? i = some v from read]

theorem truth_total {v : Value} {op : BinaryOp} {operand : Expr} {type : Option DataType} (suits : v.Of type)
    (checked : checkLogical op operand type = .ok ()) : ∃ t, PlanExpr.truth v = .ok t := by
  cases given : v.isNull with
  | true =>
      cases v with
      | null => exact ⟨_, rfl⟩
      | bool | int | id | decimal | string | timestamp | idSet | stringSet => cases given
  | false =>
      obtain ⟨t, rfl, typed⟩ := Value.typed_of_given suits given
      cases v with
      | null => cases given
      | bool => exact ⟨_, rfl⟩
      | int | id | decimal | string | timestamp | idSet | stringSet =>
          cases typed
          cases checked

theorem negate_total {v : Value} {type : Option DataType} (suits : v.Of type) (boolean : type = none ∨ type = some .bool) :
    ∃ negated, PlanExpr.negate v = .ok negated := by
  rcases suits with rfl | typed
  · exact ⟨_, rfl⟩
  · cases v with
    | null => exact ⟨_, rfl⟩
    | bool => exact ⟨_, rfl⟩
    | int | id | decimal | string | timestamp | idSet | stringSet =>
        rcases boolean with rfl | rfl
        · cases typed
        · cases typed

theorem arithmetic_overflows {op : BinaryOp} {left right : Value} {a b : DataType} {type : Option DataType}
    (typed : left.dataType? = some a) (typed' : right.dataType? = some b)
    (known : arithmeticType? op (some a) (some b) = some type) :
    Comes (fun _ => True) EngineError.Overflows (PlanExpr.arithmetic op left right) := by
  have number {v : Value} {t : DataType} {scale : UInt8} (typed : v.dataType? = some t) (scaled : scale? t = some scale) :
      ∃ n, v.scaled? = some n := by
    refine Value.number_of_type typed ?_
    cases t with
    | int | id | decimal => rfl
    | bool | string | timestamp | idSet | stringSet => cases scaled
  obtain ⟨scale, first, known⟩ := Option.bind_eq_some_iff.mp known
  obtain ⟨scale', second, -⟩ := Option.bind_eq_some_iff.mp known
  obtain ⟨n, scaled⟩ := number typed first
  obtain ⟨m, scaled'⟩ := number typed' second
  rw [PlanExpr.arithmetic, scaled, scaled']
  dsimp only
  split
  · trivial
  · exact ⟨op, left, right, rfl⟩

-- Whether the operator of an expression of this type can fail on operands of these types: only by an overflow.
theorem apply_comes {op : BinaryOp} {l r : Value} {a b : Option DataType} {left right : Expr} {type : Option DataType}
    (narrow : Narrowed a) (narrow' : Narrowed b) (suits : l.Of a) (suits' : r.Of b) (plain : op.isLogical = false)
    (typedLeft : left.type schema = .ok a) (typedRight : right.type schema = .ok b)
    (typed : (binary left op right).type schema = .ok type) :
    Comes (fun _ => True) EngineError.Overflows (PlanExpr.apply op l r) := by
  rw [PlanExpr.apply]
  split
  · trivial
  · rename_i given
    rw [Bool.or_eq_true, not_or, Bool.not_eq_true, Bool.not_eq_true] at given
    obtain ⟨t, rfl, known⟩ := Value.typed_of_given suits given.1
    obtain ⟨t', rfl, known'⟩ := Value.typed_of_given suits' given.2
    rw [Expr.type, typedLeft, typedRight] at typed
    change (if op.isComparison then _ else _) = _ at typed
    split
    · rename_i compares
      rw [if_pos compares] at typed
      split at typed
      · rename_i comparable
        obtain ⟨o, ordered⟩ := Value.order_total known known' comparable (narrow t rfl) (narrow' t' rfl)
        rw [PlanExpr.compare, ordered]
        trivial
      · cases typed
    · rename_i computes
      rw [if_neg computes, if_neg (Bool.eq_false_iff.mp plain)] at typed
      split at typed
      · rename_i found
        exact arithmetic_overflows known known' found
      · cases typed

-- On a row of the declared types an expression has a value of its type, unless a computation overflows.
theorem evaluates (columns : schema.Narrow) (fits : row.Fits schema) (e : Expr) (literals : e.Narrow)
    (type : Option DataType) (typed : e.type schema = .ok type) :
    Comes (Value.Of type) EngineError.Overflows (e.valueIn schema row) := by
  suffices comes : Comes (fun _ => True) EngineError.Overflows (e.valueIn schema row) by
    cases evaluated : e.valueIn schema row with
    | ok v => exact type_sound fits e type v typed evaluated
    | error error =>
        rw [evaluated] at comes
        exact comes
  induction e generalizing type with
  | column table name =>
      obtain ⟨i, resolved, -⟩ := ok_of_bind typed
      obtain ⟨⟨column, held, -⟩, -⟩ := (Schema.resolve_iff _ _ i).mp resolved
      obtain ⟨v, read, -⟩ := column_evaluates fits held
      exact comes_of_ok (bind_of_ok resolved read) trivial
  | literal v => trivial
  | not e ih =>
      obtain ⟨inner, typedInner, typed⟩ := ok_of_bind typed
      refine comes_bind (ih literals inner typedInner) fun v evaluated _ => ?_
      have boolean : inner = none ∨ inner = some .bool := by
        split at typed
        · exact .inl rfl
        · exact .inr rfl
        · cases typed
      obtain ⟨negated, done⟩ := negate_total (type_sound fits e inner v typedInner evaluated) boolean
      exact comes_of_ok done trivial
  | isNull e negated ih =>
      obtain ⟨inner, typedInner, -⟩ := ok_of_bind typed
      exact comes_map (ih literals inner typedInner) fun _ _ _ => trivial
  | binary left op right ih ih' =>
      have whole := typed
      obtain ⟨a, typedLeft, typed⟩ := ok_of_bind typed
      obtain ⟨b, typedRight, typed⟩ := ok_of_bind typed
      refine comes_bind (ih literals.1 a typedLeft) fun l first _ => ?_
      have suits := type_sound fits left a l typedLeft first
      split
      · rename_i logical
        have plain : op.isComparison = false := by
          cases op with
          | and | or => rfl
          | eq | notEq | lt | ltEq | gt | gtEq | plus | minus | multiply => cases logical
        rw [if_neg (Bool.eq_false_iff.mp plain), if_pos logical] at typed
        obtain ⟨⟨⟩, checked, typed⟩ := ok_of_bind typed
        obtain ⟨⟨⟩, checked', -⟩ := ok_of_bind typed
        obtain ⟨t, truth⟩ := truth_total suits checked
        rw [truth]
        change Comes _ _ (if t = some (PlanExpr.dominant op) then _ else _)
        split
        · trivial
        · refine comes_bind (ih' literals.2 b typedRight) fun r second _ => ?_
          obtain ⟨t', truth'⟩ := truth_total (type_sound fits right b r typedRight second) checked'
          rw [truth']
          trivial
      · rename_i logical
        refine comes_bind (ih' literals.2 b typedRight) fun r second _ => ?_
        exact apply_comes (type_narrow columns left literals.1 a typedLeft) (type_narrow columns right literals.2 b typedRight)
          suits (type_sound fits right b r typedRight second) (Bool.eq_false_iff.mpr logical) typedLeft typedRight whole

end Expr

-- A value of the declared type, or null where the column may be null.
def Value.Suits (column : Column) (v : Value) : Prop :=
  v.dataType? = some column.type ∨ v = .null ∧ column.nullable = true

theorem Value.null_suits {column : Column} (suits : Value.null.Suits column) : column.nullable = true :=
  suits.elim nofun And.right

def Value.isSet : Value → Bool
  | .idSet _ | .stringSet _ => true
  | _ => false

def Row.Conforms (row : Row) (schema : Schema) : Prop :=
  List.Forall₂ (fun v (column : Column) => v.Suits column) row.values schema.columns

theorem Row.conforms_fits {row : Row} {schema : Schema} (conforms : row.Conforms schema) : row.Fits schema :=
  conforms.imp fun _ _ suits => suits.elim .inr fun null => .inl null.1

namespace Schema

theorem check_value_iff {column : Column} {v : Value} (suits : v.Suits column) :
    checkValue v column = .ok () ↔ v.isSet = false := by
  rcases suits with typed | ⟨rfl, nullable⟩
  · obtain ⟨name, type, nullable, relation⟩ := column
    cases v with
    | null => cases typed
    | bool | int | id | decimal | string | timestamp | idSet | stringSet =>
        cases typed
        simp [checkValue, Value.dataType?, DataType.comparable, DataType.isNumeric, Value.isSet]
  · simp [checkValue, Value.dataType?, nullable, Value.isSet]

-- Sets compare with nothing, so a row that holds one is refused even by its own columns.
theorem check_row_iff {schema : Schema} {row : Row} (conforms : row.Conforms schema) :
    schema.checkRow row = .ok () ↔ ∀ v ∈ row.values, v.isSet = false := by
  have paired : ∀ entry ∈ row.values.zip schema.columns, entry.1.Suits entry.2 := fun entry member =>
    (List.forall₂_iff_zip.mp conforms).2 member
  have values : (row.values.zip schema.columns).map (·.1) = row.values :=
    List.map_fst_zip (Nat.le_of_eq conforms.length_eq)
  rw [checkRow, if_pos (show row.size = schema.size from conforms.length_eq), for_m_ok_iff]
  constructor
  · intro checked v member
    rw [← values] at member
    obtain ⟨entry, among, rfl⟩ := List.mem_map.mp member
    exact (check_value_iff (paired entry among)).mp (checked entry among)
  · intro plain entry among
    refine (check_value_iff (paired entry among)).mpr (plain entry.1 ?_)
    rw [← values]
    exact List.mem_map_of_mem among

end Schema

variable {input output : Schema} {row : Row}

namespace SelectItem

def Narrow : SelectItem → Prop
  | .wildcard _ => True
  | .expr e _ => e.Narrow

theorem analyze_narrow (columns : input.Narrow) (item : SelectItem) (items : List SelectItem) (literals : item.Narrow)
    (done : item.analyze input = .ok items) : ∀ expanded ∈ items, expanded.Narrow := by
  intro expanded member
  cases item with
  | wildcard relation =>
      obtain rfl := expand_eq done
      obtain ⟨own, -, rfl⟩ := List.mem_map.mp member
      trivial
  | expr e label =>
      obtain ⟨qualified, first, done⟩ := ok_of_bind done
      obtain ⟨_, -, done⟩ := ok_of_bind done
      cases done
      obtain rfl := List.mem_singleton.mp member
      exact Expr.qualify_narrow columns e qualified literals first

theorem default_narrow {type : Option DataType} (narrow : Expr.Narrowed type) :
    (type.getD .int).scale ≤ DataType.maxScale := by
  cases type with
  | none => exact UInt8.zero_le
  | some type => exact narrow type rfl

theorem column_narrow (columns : input.Narrow) {item : SelectItem} {column : Column} (literals : item.Narrow)
    (declared : item.column input = .ok column) : column.type.scale ≤ DataType.maxScale := by
  cases item with
  | wildcard => cases declared
  | expr e label =>
      obtain ⟨type, typed, declared⟩ := ok_of_bind declared
      have narrow := default_narrow (Expr.type_narrow columns e literals type typed)
      cases e with
      | column table name =>
          cases label with
          | none =>
              obtain ⟨i, -, declared⟩ := ok_of_bind declared
              split at declared
              · rename_i held
                cases declared
                exact columns column (List.mem_of_getElem? held)
              · cases declared
          | some label =>
              obtain ⟨i, -, declared⟩ := ok_of_bind declared
              cases declared
              exact narrow
      | literal | binary | not | isNull =>
          cases declared
          exact narrow

-- A value of an item suits the column of the output that the item has.
theorem value_suits (conforms : row.Conforms input) {e : Expr} {label : Option String} {column : Column} {v : Value}
    (declared : (SelectItem.expr e label).column input = .ok column) (evaluated : e.valueIn input row = .ok v) :
    v.Suits column := by
  refine (column_sound (Row.conforms_fits conforms) declared (expr_gives evaluated)).symm.imp_right fun null => ⟨null, ?_⟩
  subst null
  obtain ⟨type, -, declared⟩ := ok_of_bind declared
  cases e with
  | column table name =>
      obtain ⟨j, resolved, read⟩ := ok_of_bind evaluated
      obtain ⟨own, held, suits⟩ := forall₂_at conforms j .null (PlanExpr.column_of_ok read)
      have held : input.get? j = some own := held
      have nullable := Value.null_suits suits
      cases label with
      | none =>
          obtain ⟨i, resolved', declared⟩ := ok_of_bind declared
          cases resolved.symm.trans resolved'
          rw [held] at declared
          cases declared
          exact nullable
      | some label =>
          obtain ⟨i, resolved', declared⟩ := ok_of_bind declared
          cases resolved.symm.trans resolved'
          rw [held] at declared
          cases declared
          exact nullable
  | literal w =>
      cases declared
      cases evaluated
      rfl
  | binary | not | isNull =>
      cases declared
      rfl

theorem item_comes (columns : input.Narrow) (conforms : row.Conforms input) {item : SelectItem} {column : Column}
    {bound : PlanExpr} (literals : item.Narrow) (declared : item.column input = .ok column)
    (binds : item.bind input = .ok bound) : Comes (Value.Suits column) EngineError.Overflows (bound.eval row none) := by
  cases item with
  | wildcard => cases declared
  | expr e label =>
      obtain ⟨type, typed, -⟩ := ok_of_bind declared
      rw [Expr.bind_value e bound binds]
      refine comes_imp (Expr.evaluates columns (Row.conforms_fits conforms) e literals type typed) fun v evaluated _ => ?_
      exact value_suits conforms declared evaluated

end SelectItem

theorem described_narrow (columns : input.Narrow) {items : List SelectItem} (literals : ∀ item ∈ items, item.Narrow)
    (described : outputSchema items input = .ok output) : output.Narrow := by
  intro column member
  obtain ⟨item, among, declared⟩ := forall₂_origin (described_iff.mp described) column member
  exact SelectItem.column_narrow columns (literals item among) declared

-- What a projection makes of a row of the declared types.
theorem projection_comes (columns : input.Narrow) (conforms : row.Conforms input) {items : List SelectItem}
    {exprs : List PlanExpr} (literals : ∀ item ∈ items, item.Narrow) (described : outputSchema items input = .ok output)
    (binds : items.mapM (SelectItem.bind input) = .ok exprs) :
    Comes (Row.Conforms · output) EngineError.Overflows ((exprs.mapM (PlanExpr.eval row none)).map Row.mk) := by
  have each : List.Forall₂ (fun (bound : PlanExpr) column => Comes (Value.Suits column) EngineError.Overflows
      (bound.eval row none)) exprs output.columns := by
    have bound : List.Forall₂ (fun (bound : PlanExpr) (item : SelectItem) => item.Narrow ∧ item.bind input = .ok bound)
        exprs items :=
      forall₂_imp_of_mem (map_m_ok_iff.mp binds).flip fun bound item member done => ⟨literals item member, done⟩
    refine forall₂_join bound.flip (described_iff.mp described) ?_
    exact fun item bound _ column _ own declared => SelectItem.item_comes columns conforms own.1 declared own.2
  exact comes_map (comes_map_m each) fun values _ suits => suits.flip

namespace Select

theorem condition_comes (columns : input.Narrow) (fits : row.Fits input) {condition analyzed : Expr} {bound : PlanExpr}
    (literals : condition.Narrow) (done : analyzeCondition input condition = .ok analyzed)
    (binds : analyzed.bind input = .ok bound) :
    Comes (fun _ => True) EngineError.Overflows (bound.isTrue row none) := by
  obtain ⟨qualified, type, typed, boolean⟩ := condition_typed done
  have narrow := Expr.qualify_narrow columns condition analyzed literals qualified
  rw [PlanExpr.isTrue, Expr.bind_value analyzed bound binds]
  refine comes_bind (Expr.evaluates columns fits analyzed narrow type typed) fun v _ suits => ?_
  cases v with
  | null | bool => trivial
  | int | id | decimal | string | timestamp | idSet | stringSet =>
      rcases suits with impossible | known
      · cases impossible
      · rcases boolean with rfl | rfl
        · cases known
        · cases known

theorem key_comes (columns : output.Narrow) {item analyzed : OrderItem} {bound : PlanExpr} (literals : item.key.Narrow)
    (done : analyzeOrder output item = .ok analyzed) (binds : analyzed.key.bind output = .ok bound) :
    ∃ type, ∀ row : Row, row.Fits output → Comes (Value.Of type) EngineError.Overflows (bound.eval row none) := by
  obtain ⟨qualified, -, type, typed⟩ := order_typed done
  refine ⟨type, fun row fits => ?_⟩
  rw [Expr.bind_value analyzed.key bound binds]
  exact Expr.evaluates columns fits analyzed.key (Expr.qualify_narrow columns item.key analyzed.key literals qualified) type typed

end Select

end ShardQuery
