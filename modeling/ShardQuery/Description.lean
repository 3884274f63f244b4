/-!
Descriptions of plans and schemas as trees of labelled parts.
-/

set_option autoImplicit false

namespace ShardQuery

inductive Description where
  | text (s : String)
  | number (n : Nat)
  | flag (b : Bool)
  | list (parts : List Description)
  | record (parts : List (String × Description))

end ShardQuery
