import ShardQuery.Value.Basic
/-!
The number a value denotes, as an unscaled integer and a scale. Rescaling and arithmetic go through
128-bit integers: a result outside them is refused, never wrapped.
-/

set_option autoImplicit false

namespace ShardQuery

structure Scaled where
  unscaled : Int
  scale : UInt8
deriving DecidableEq

namespace Scaled

-- Refuses integers outside 128 bits.
def wide? (n : Int) : Option Int :=
  if -(2 ^ 127) ≤ n ∧ n < 2 ^ 127 then some n else none

-- Refuses integers outside 64 bits.
def word? (n : Int) : Option Int64 :=
  if -(2 ^ 63) ≤ n ∧ n < 2 ^ 63 then some (Int64.ofInt n) else none

def powerOfTen? (exponent : Nat) : Option Int :=
  if exponent ≤ 38 then some (10 ^ exponent) else none

def widen? (n : Int) (digits : Nat) : Option Int :=
  (powerOfTen? digits).bind fun power => wide? (n * power)

def narrow? (n : Int) (digits : Nat) : Option Int :=
  (powerOfTen? digits).bind fun power => if n.tmod power = 0 then some (n.tdiv power) else none

def rescale? (number : Scaled) (scale : UInt8) : Option Int :=
  if number.scale ≤ scale then widen? number.unscaled (scale.toNat - number.scale.toNat)
  else narrow? number.unscaled (number.scale.toNat - scale.toNat)

def align? (a b : Scaled) : Option (Int × Int × UInt8) :=
  let scale := if a.scale ≤ b.scale then b.scale else a.scale
  (widen? a.unscaled (scale.toNat - a.scale.toNat)).bind fun left =>
    (widen? b.unscaled (scale.toNat - b.scale.toNat)).map fun right => (left, right, scale)

def order? (a b : Scaled) : Option Ordering :=
  (align? a b).map fun aligned => compare aligned.1 aligned.2.1

end Scaled

namespace Value

def scaled? : Value → Option Scaled
  | .int n => some ⟨n.toInt, 0⟩
  | .id n => some ⟨n.toNat, 0⟩
  | .decimal unscaled scale => some ⟨unscaled.toInt, scale⟩
  | _ => none

-- Null comes first, numbers compare across types, other values within their type.
def order? : Value → Value → Option Ordering
  | .null, .null => some .eq
  | .null, _ => some .lt
  | _, .null => some .gt
  | .bool a, .bool b => some (compare a b)
  | .string a, .string b => some (compare a b)
  | .timestamp a, .timestamp b => some (compare a b)
  | a, b => a.scaled?.bind fun left => b.scaled?.bind fun right => left.order? right

def convert? (v : Value) (target : DataType) : Option Value :=
  match v, target with
  | .null, _ => some .null
  | .bool b, .bool => some (.bool b)
  | .int n, .int => some (.int n)
  | .int n, .id => if 0 ≤ n.toInt then some (.id n.toUInt64) else none
  | .int n, .timestamp => some (.timestamp n)
  | .id n, .id => some (.id n)
  | .id n, .int => (Scaled.word? n.toNat).map .int
  | .string s, .string => some (.string s)
  | .timestamp t, .timestamp => some (.timestamp t)
  | .idSet members, .idSet => some (.idSet members)
  | .stringSet members, .stringSet => some (.stringSet members)
  | v, .decimal scale =>
      v.scaled?.bind fun number => (number.rescale? scale).bind fun unscaled =>
        (Scaled.word? unscaled).map fun word => .decimal word scale
  | _, _ => none

end Value

end ShardQuery
