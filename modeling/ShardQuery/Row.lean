import ShardQuery.Value.Canonical
/-!
Rows, their canonical bytes, and the rows of a list that occur for the first time.
-/

set_option autoImplicit false

namespace ShardQuery

structure Row where
  values : List Value
deriving Inhabited, DecidableEq

namespace Row

def empty : Row := ⟨[]⟩

def size (row : Row) : Nat := row.values.length

def get? (row : Row) (i : Nat) : Option Value := row.values[i]?

def append (a b : Row) : Row := ⟨a.values ++ b.values⟩

-- Every value is followed by a tab.
def text (row : Row) : String := String.join (row.values.map fun v => v.text ++ "\t")

def canonical (row : Row) : Bytes :=
  Bytes.little 4 row.values.length ++ row.values.flatMap Value.canonical

instance : BEq Row := ⟨fun a b => a.values == b.values⟩

def firstOccurrences (rows : List Row) : List Row :=
  rows.foldl (fun kept row => if kept.any (· == row) then kept else kept ++ [row]) []

end Row

end ShardQuery
