/-!
The types a column can have.
-/

set_option autoImplicit false

namespace ShardQuery

inductive DataType where
  | bool
  | int
  | id
  | decimal (scale : UInt8)
  | string
  -- Microseconds since 1970.
  | timestamp
  | idSet
  | stringSet
deriving DecidableEq

namespace DataType

def maxScale : UInt8 := 18

def text : DataType → String
  | .bool => "bool"
  | .int => "int"
  | .id => "id"
  | .decimal scale => s!"decimal({scale.toNat})"
  | .string => "string"
  | .timestamp => "timestamp"
  | .idSet => "idset"
  | .stringSet => "stringset"

def isNumeric : DataType → Bool
  | .int | .id | .decimal _ => true
  | _ => false

-- Numbers compare across types, sets with nothing, and all else within its own type.
def comparable (a b : DataType) : Bool :=
  if a.isNumeric && b.isNumeric then true
  else
    match a with
    | .idSet | .stringSet => false
    | _ => a == b

def scale : DataType → UInt8
  | .decimal scale => scale
  | _ => 0

-- Whether values of these types have a common order: they are of one type, or compare at scales that always can
-- be brought together.
def uniform : List DataType → Bool
  | [] => true
  | first :: rest =>
      rest.all (· == first) || (first :: rest).all fun type => first.comparable type && type.scale ≤ maxScale

end DataType

end ShardQuery
