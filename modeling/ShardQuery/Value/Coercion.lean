import ShardQuery.Value.Scaled
import ShardQuery.Error
/-!
Conversion of a value to a column's type, refused where something would be lost.
-/

set_option autoImplicit false

namespace ShardQuery.Value

def coerce (v : Value) (target : DataType) : Outcome Value :=
  match v.convert? target with
  | some converted => .ok converted
  | none => .error (.typeMismatch s!"cannot use value {v.text} as type {target.text}")

end ShardQuery.Value
