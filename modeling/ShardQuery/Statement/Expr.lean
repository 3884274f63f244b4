import ShardQuery.Value.Canonical
import ShardQuery.Schema
/-!
Expressions as statements write them, with columns by name.
-/

set_option autoImplicit false

namespace ShardQuery

inductive BinaryOp where
  | eq
  | notEq
  | lt
  | ltEq
  | gt
  | gtEq
  | and
  | or
  | plus
  | minus
  | multiply
deriving DecidableEq

namespace BinaryOp

def isComparison : BinaryOp → Bool
  | .eq | .notEq | .lt | .ltEq | .gt | .gtEq => true
  | _ => false

def isLogical : BinaryOp → Bool
  | .and | .or => true
  | _ => false

def text : BinaryOp → String
  | .eq => "="
  | .notEq => "<>"
  | .lt => "<"
  | .ltEq => "<="
  | .gt => ">"
  | .gtEq => ">="
  | .and => "AND"
  | .or => "OR"
  | .plus => "+"
  | .minus => "-"
  | .multiply => "*"

end BinaryOp

inductive Expr where
  | column (table : Option String) (name : String)
  | literal (v : Value)
  | binary (left : Expr) (op : BinaryOp) (right : Expr)
  | not (e : Expr)
  -- `IS NULL`, or `IS NOT NULL` when negated.
  | isNull (e : Expr) (negated : Bool)
deriving Inhabited

namespace Expr

-- Operators stand between their operands without brackets.
def text : Expr → String
  | .column table name => Schema.referenceText table name
  | .literal v => v.literalText
  | .binary left op right => s!"{left.text} {op.text} {right.text}"
  | .not e => s!"NOT {e.text}"
  | .isNull e negated => if negated then s!"{e.text} IS NOT NULL" else s!"{e.text} IS NULL"

end Expr

end ShardQuery
