import ShardQuery.Statement.Expr
import ShardQuery.Value.Coercion
/-!
Bound expressions: columns by position, in the row at hand or in the outer row of a correlated run.
-/

set_option autoImplicit false

namespace ShardQuery

inductive PlanExpr where
  | column (i : Nat)
  | outer (i : Nat)
  | literal (v : Value)
  | binary (left : PlanExpr) (op : BinaryOp) (right : PlanExpr)
  | not (e : PlanExpr)
  | isNull (e : PlanExpr) (negated : Bool)
deriving Inhabited, BEq

namespace PlanExpr

-- Operators and their operands stand in brackets.
def text : PlanExpr → String
  | .column i => s!"${i}"
  | .outer i => s!"outer.${i}"
  | .literal v => v.literalText
  | .binary left op right => s!"({left.text} {op.text} {right.text})"
  | .not e => s!"NOT {e.text}"
  | .isNull e negated => if negated then s!"{e.text} IS NOT NULL" else s!"{e.text} IS NULL"

-- The truth of a logical operand; null is neither true nor false.
def truth : Value → Outcome (Option Bool)
  | .null => .ok none
  | .bool b => .ok (some b)
  | v => .error (.typeMismatch s!"logical operand {v.text} is not boolean")

-- The truth value that decides a conjunction or disjunction on its own.
def dominant : BinaryOp → Bool
  | .and => false
  | _ => true

def connect (op : BinaryOp) (left right : Option Bool) : Value :=
  if left = some (dominant op) ∨ right = some (dominant op) then .bool (dominant op)
  else if left = some (!dominant op) ∧ right = some (!dominant op) then .bool (!dominant op)
  else .null

def holds (op : BinaryOp) (order : Ordering) : Bool :=
  match op with
  | .eq => order == .eq
  | .notEq => order != .eq
  | .lt => order == .lt
  | .ltEq => order != .gt
  | .gt => order == .gt
  | _ => order != .lt

def compare (op : BinaryOp) (left right : Value) : Outcome Value :=
  match left.order? right with
  | some order => .ok (.bool (holds op order))
  | none => .error (.typeMismatch s!"cannot compare {left.text} and {right.text}")

-- The exact result of an operation at its scale, where 128 bits can hold it.
def compute? (op : BinaryOp) (left right : Scaled) : Option (Int × UInt8) :=
  match op with
  | .multiply =>
      let scale := left.scale.toNat + right.scale.toNat
      if DataType.maxScale.toNat < scale then none
      else (Scaled.wide? (left.unscaled * right.unscaled)).map (·, UInt8.ofNat scale)
  | _ =>
      (Scaled.align? left right).bind fun (a, b, scale) =>
        (Scaled.wide? (if op = .minus then a - b else a + b)).map (·, scale)

def isDecimal : Value → Bool
  | .decimal .. => true
  | _ => false

def arithmetic (op : BinaryOp) (left right : Value) : Outcome Value :=
  match left.scaled?, right.scaled? with
  | some a, some b =>
      let result := (compute? op a b).bind fun (unscaled, scale) =>
        (Scaled.word? unscaled).map fun word =>
          if isDecimal left || isDecimal right then .decimal word scale else .int word
      match result with
      | some v => .ok v
      | none => .error (.execution s!"overflow computing {left.text} {op.text} {right.text}")
  | _, _ => .error (.typeMismatch s!"cannot compute {left.text} {op.text} {right.text}")

def apply (op : BinaryOp) (left right : Value) : Outcome Value :=
  if left.isNull || right.isNull then .ok .null
  else if op.isComparison then compare op left right
  else arithmetic op left right

def negate : Value → Outcome Value
  | .null => .ok .null
  | .bool b => .ok (.bool !b)
  | v => .error (.typeMismatch s!"NOT applied to {v.text}")

def columnOf (row : Row) (i : Nat) : Outcome Value :=
  match row.get? i with
  | some v => .ok v
  | none => .error (.internal s!"column {i} out of range")

def outerOf (outer : Option Row) (i : Nat) : Outcome Value :=
  match outer.bind (·.get? i) with
  | some v => .ok v
  | none => .error (.internal s!"outer column {i} not available")

-- The value of an expression on a row. The right operand of a conjunction or disjunction is not evaluated when
-- the left one decides.
def eval (row : Row) (outer : Option Row) : PlanExpr → Outcome Value
  | .column i => columnOf row i
  | .outer i => outerOf outer i
  | .literal v => .ok v
  | .not e => (eval row outer e).bind negate
  | .isNull e negated => (eval row outer e).map fun v => .bool (v.isNull != negated)
  | .binary left op right =>
      (eval row outer left).bind fun l =>
        if op.isLogical then
          (truth l).bind fun a =>
            if a = some (dominant op) then .ok (.bool (dominant op))
            else (eval row outer right).bind fun r => (truth r).map fun b => connect op a b
        else (eval row outer right).bind fun r => apply op l r

def isTrue (row : Row) (outer : Option Row) (predicate : PlanExpr) : Outcome Bool :=
  (eval row outer predicate).bind fun v =>
    match v with
    | .bool b => .ok b
    | .null => .ok false
    | v => .error (.typeMismatch s!"predicate evaluated to non boolean {v.text}")

end PlanExpr

end ShardQuery
