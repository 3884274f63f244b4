import ShardQuery.Statement.Basic
import ShardQuery.Value.Coercion
/-!
Types of expressions, names made unambiguous, and the columns of a projection.
-/

set_option autoImplicit false

namespace ShardQuery

namespace Expr

def scale? : DataType → Option UInt8
  | .decimal scale => some scale
  | .int | .id => some 0
  | _ => none

def isDecimalType : DataType → Bool
  | .decimal _ => true
  | _ => false

-- The type of an arithmetic result; an operand of no type is null and takes the other's type. None stands for
-- operands that cannot be computed with.
def arithmeticType? (op : BinaryOp) (left right : Option DataType) : Option (Option DataType) :=
  match left, right with
  | none, none => some none
  | some type, none | none, some type => (scale? type).map fun _ => some type
  | some a, some b =>
      (scale? a).bind fun scaleA => (scale? b).bind fun scaleB =>
        if !(isDecimalType a || isDecimalType b) then some (some .int)
        else if op = .multiply then
          let sum := scaleA.toNat + scaleB.toNat
          if sum ≤ DataType.maxScale.toNat then some (some (.decimal (UInt8.ofNat sum))) else none
        else some (some (.decimal (if scaleA ≤ scaleB then scaleB else scaleA)))

def checkLogical (op : BinaryOp) (operand : Expr) (type : Option DataType) : Outcome Unit :=
  match type with
  | none | some .bool => .ok ()
  | some other =>
      .error (.typeMismatch s!"{op.text} operand {operand.text} is {other.text}, not bool")

def type (schema : Schema) : Expr → Outcome (Option DataType)
  | .column table name => do
      let i ← schema.resolve table name
      return (schema.get? i).map (·.type)
  | .literal v => .ok v.dataType?
  | .isNull e _ => do
      let _ ← type schema e
      return some .bool
  | .not e => do
      match ← type schema e with
      | none | some .bool => return some .bool
      | some other => throw (.typeMismatch s!"NOT applied to {e.text} of type {other.text}")
  | .binary left op right => do
      let leftType ← type schema left
      let rightType ← type schema right
      if op.isComparison then
        match leftType, rightType with
        | some a, some b =>
            if a.comparable b then return some .bool
            else throw (.typeMismatch
              s!"cannot compare {left.text} of type {a.text} with {right.text} of type {b.text}")
        | _, _ => return some .bool
      else if op.isLogical then
        checkLogical op left leftType
        checkLogical op right rightType
        return some .bool
      else
        match arithmeticType? op leftType rightType with
        | some type => return type
        | none => throw (.typeMismatch s!"cannot compute {(Expr.binary left op right).text}")

-- A literal takes the type it is compared with, where nothing is lost.
def adopt (target : Option DataType) : Expr → Expr
  | .literal v =>
      match target.bind v.convert? with
      | some converted => .literal converted
      | none => .literal v
  | e => e

def ofColumn (found : Column) : Expr := .column found.relation found.name

-- Qualifies column references and lets literals adopt the type they are compared with: the right operand first,
-- then the left one.
def qualify (schema : Schema) : Expr → Outcome Expr
  | .column table name => do
      let i ← schema.resolve table name
      match schema.get? i with
      | some found => return ofColumn found
      | none => throw (.unknownColumn (Schema.referenceText table name))
  | .literal v => .ok (.literal v)
  | .not e => do return .not (← qualify schema e)
  | .isNull e negated => do return .isNull (← qualify schema e) negated
  | .binary left op right => do
      let left ← qualify schema left
      let right ← qualify schema right
      if op.isComparison then
        let right := adopt (← type schema left) right
        let left := adopt (← type schema right) left
        return .binary left op right
      else return .binary left op right

end Expr

namespace SelectItem

def wildcardLeft : EngineError := .internal "wildcard left in analyzed projection"

-- The output column of a projected expression: named by its alias, else by the column it reads, else by its
-- text. A null of no type is declared an integer.
def column (input : Schema) : SelectItem → Outcome Column
  | .wildcard _ => .error wildcardLeft
  | .expr e alias? => do
      let type := (← e.type input).getD .int
      match e, alias? with
      | .column table name, none =>
          let i ← input.resolve table name
          match input.get? i with
          | some found => return found
          | none => throw (.unknownColumn (Schema.referenceText table name))
      | .column table name, some label =>
          let i ← input.resolve table name
          return ⟨label, type, ((input.get? i).map (·.nullable)).getD true, none⟩
      | .literal v, label => return ⟨label.getD e.text, type, v.isNull, none⟩
      | _, label => return .plain (label.getD e.text) type

end SelectItem

def outputSchema (items : List SelectItem) (input : Schema) : Outcome Schema := do
  return ⟨← items.mapM (SelectItem.column input)⟩

end ShardQuery
