import ShardQuery.DataType
import ShardQuery.Text.Fold
/-!
Values of a row. A value knows its own type, except null, which belongs to every type.
-/

set_option autoImplicit false

namespace ShardQuery

inductive Value where
  | null
  | bool (b : Bool)
  | int (n : Int64)
  | id (n : UInt64)
  -- The number `unscaled / 10 ^ scale`.
  | decimal (unscaled : Int64) (scale : UInt8)
  | string (s : String)
  | timestamp (micros : Int64)
  | idSet (members : List UInt64)
  | stringSet (members : List String)
deriving Inhabited, DecidableEq

namespace Value

def dataType? : Value → Option DataType
  | .null => none
  | .bool _ => some .bool
  | .int _ => some .int
  | .id _ => some .id
  | .decimal _ scale => some (.decimal scale)
  | .string _ => some .string
  | .timestamp _ => some .timestamp
  | .idSet _ => some .idSet
  | .stringSet _ => some .stringSet

def isNull : Value → Bool
  | .null => true
  | _ => false

-- Record ids are written as ids or as integers from zero on.
def asId? : Value → Option UInt64
  | .id n => some n
  | .int n => if 0 ≤ n.toInt then some n.toUInt64 else none
  | _ => none

def asBool? : Value → Option Bool
  | .bool b => some b
  | _ => none

-- A decimal point `scale` digits from the right, with at least one digit before it.
def decimalText (unscaled : Int64) (scale : UInt8) : String :=
  if scale = 0 then toString unscaled.toInt
  else
    let digits := Text.padZero (scale.toNat + 1) (Nat.toDigits 10 unscaled.toInt.natAbs)
    let whole := digits.length - scale.toNat
    let sign := if unscaled.toInt < 0 then ['-'] else []
    String.ofList (sign ++ digits.take whole ++ '.' :: digits.drop whole)

def text : Value → String
  | .null => "NULL"
  | .bool b => if b then "true" else "false"
  | .int n => toString n.toInt
  | .id n => toString n.toNat
  | .decimal unscaled scale => decimalText unscaled scale
  | .string s => s
  | .timestamp t => toString t.toInt
  | .idSet members => "[" ++ Text.join "," (members.map fun n => toString n.toNat) ++ "]"
  | .stringSet members => "[" ++ Text.join "," (members.map Text.quoted) ++ "]"

def literalText : Value → String
  | .string s => Text.quoted s
  | v => v.text

end Value

end ShardQuery
