import ShardQuery.Text.Fold
/-!
CBOR data items, their written form and how deeply they nest. Written items have definite lengths and
the shortest heads; only a loose map is written without a length.
-/

set_option autoImplicit false

namespace ShardQuery.Cbor

inductive Item where
  | natural (n : Nat)
  -- The number `-1 - n`.
  | negative (n : Nat)
  | bytes (bytes : Bytes)
  | text (s : String)
  | array (items : List Item)
  | map (members : List (Item × Item))
  -- A map whose head is longer than it has to be, or tells no length.
  | looseMap (members : List (Item × Item))
  | tagged (item : Item)
  | bool (b : Bool)
  | null
  | undefined
  -- A floating point number; its value is of no use here.
  | float
deriving Inhabited

def big (width n : Nat) : Bytes := (Bytes.little width n).reverse

-- The head of an item: its major type and its argument in as few bytes as can hold it.
def head (major argument : Nat) : Bytes :=
  if argument < 24 then [UInt8.ofNat (32 * major + argument)]
  else if argument < 2 ^ 8 then UInt8.ofNat (32 * major + 24) :: big 1 argument
  else if argument < 2 ^ 16 then UInt8.ofNat (32 * major + 25) :: big 2 argument
  else if argument < 2 ^ 32 then UInt8.ofNat (32 * major + 26) :: big 4 argument
  else UInt8.ofNat (32 * major + 27) :: big 8 argument

namespace Item

mutual
def encode : Item → Bytes
  | .natural n => head 0 n
  | .negative n => head 1 n
  | .bytes content => head 2 content.length ++ content
  | .text s => head 3 (Text.utf8 s).length ++ Text.utf8 s
  | .array items => head 4 items.length ++ encodeItems items
  | .map members => head 5 members.length ++ encodeMembers members
  | .looseMap members => 0xbf :: encodeMembers members ++ [0xff]
  | .tagged item => head 6 0 ++ encode item
  | .bool b => [if b then 0xf5 else 0xf4]
  | .null => [0xf6]
  | .undefined => [0xf7]
  | .float => [0xf9, 0, 0]

def encodeItems : List Item → Bytes
  | [] => []
  | item :: rest => encode item ++ encodeItems rest

def encodeMembers : List (Item × Item) → Bytes
  | [] => []
  | (key, item) :: rest => encode key ++ encode item ++ encodeMembers rest
end

mutual
-- How many maps, arrays and tags are open at once at most.
def depth : Item → Nat
  | .array items => depthItems items + 1
  | .map members => depthMembers members + 1
  | .looseMap members => depthMembers members + 1
  | .tagged item => depth item + 1
  | _ => 0

def depthItems : List Item → Nat
  | [] => 0
  | item :: rest => max (depth item) (depthItems rest)

def depthMembers : List (Item × Item) → Nat
  | [] => 0
  | (key, item) :: rest => max (max (depth key) (depth item)) (depthMembers rest)
end

end Item

end ShardQuery.Cbor
