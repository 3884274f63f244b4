import ShardQuery.Value.Basic
/-!
The canonical bytes of a value: a tag, then a payload in which trailing zeros of a decimal, the order
of a set and repeated members have been removed. Values are equal when these bytes are.
-/

set_option autoImplicit false

namespace ShardQuery.Value

def reduce (unscaled : Int) : Nat → Int × Nat
  | 0 => (unscaled, 0)
  | scale + 1 =>
      if unscaled.tmod 10 = 0 then reduce (unscaled.tdiv 10) scale else (unscaled, scale + 1)

def idMembers (members : List UInt64) : List UInt64 := (members.mergeSort (· ≤ ·)).eraseReps

def stringMembers (members : List String) : List String := (members.mergeSort (· ≤ ·)).eraseReps

def stringBytes (s : String) : Bytes :=
  let bytes := Text.utf8 s
  Bytes.little 4 bytes.length ++ bytes

def canonical : Value → Bytes
  | .null => [0]
  | .bool b => [1, if b then 1 else 0]
  | .int n => 2 :: Bytes.signed64 n
  | .id n => 3 :: Bytes.word64 n
  | .decimal unscaled scale =>
      let reduced := reduce unscaled.toInt scale.toNat
      4 :: Bytes.signed64 (Int64.ofInt reduced.1) ++ [UInt8.ofNat reduced.2]
  | .string s => 5 :: stringBytes s
  | .timestamp t => 6 :: Bytes.signed64 t
  | .idSet members =>
      let sorted := idMembers members
      7 :: Bytes.little 4 sorted.length ++ sorted.flatMap Bytes.word64
  | .stringSet members =>
      let sorted := stringMembers members
      8 :: Bytes.little 4 sorted.length ++ sorted.flatMap stringBytes

instance : BEq Value := ⟨fun a b => a.canonical == b.canonical⟩

theorem beq_iff (a b : Value) : (a == b) = true ↔ a.canonical = b.canonical := by
  show (a.canonical == b.canonical) = true ↔ _
  exact beq_iff_eq

end ShardQuery.Value
