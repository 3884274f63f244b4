import ShardQuery.Sort.Short
/-!
Stable sorting by partition. The pivot is a median of elements spread over the list; elements like the
pivot of the part to the left are set apart at once.
-/

set_option autoImplicit false

namespace ShardQuery.Sort

variable {α : Type} (less : α → α → Bool)

def median (at? : Nat → Option α) (a b c : Nat) : Nat :=
  let below (i j : Nat) : Bool :=
    match at? i, at? j with
    | some x, some y => less x y
    | _, _ => false
  let low := below a b
  if low == below a c then if below b c ^^ low then c else b else a

-- The median of medians of three, each from a stretch of `size` elements.
def spreadMedian (at? : Nat → Option α) : Nat → Nat → Nat → Nat → Nat → Nat
  | 0, _, a, b, c => median less at? a b c
  | fuel + 1, size, a, b, c =>
      if 64 ≤ size * 8 then
        let step := size / 8
        let within (i : Nat) : Nat := spreadMedian at? fuel step i (i + step * 4) (i + step * 7)
        median less at? (within a) (within b) (within c)
      else median less at? a b c

def pivotPosition (elements : List α) : Nat :=
  let step := elements.length / 8
  let items := elements.toArray
  let at? (i : Nat) : Option α := items[i]?
  if elements.length < 64 then median less at? 0 (step * 4) (step * 7)
  else spreadMedian less at? step step 0 (step * 4) (step * 7)

-- Splits at a pivot into the elements that go left and the others. The pivot itself, at `position`, is not
-- tested.
def split (goesLeft : α → Bool) (pivotLeft : Bool) (position : Nat) (elements : List α) : List α × List α :=
  let (left, right) := elements.zipIdx.partition fun element =>
    if element.2 == position then pivotLeft else goesLeft element.1
  (left.map (·.1), right.map (·.1))

-- Sorts by partition, `limit` levels deep at most; deeper parts are sorted by `otherwise`. `leftPivot` is the
-- pivot to the left of the elements.
def partitions (otherwise : List α → Option (List α)) : Nat → Nat → Option α → List α → Option (List α)
  | 0, _, _, elements => otherwise elements
  | fuel + 1, limit, leftPivot, elements =>
      if elements.length ≤ shortLength then short less elements
      else if limit = 0 then otherwise elements
      else
        let position := pivotPosition less elements
        match elements[position]? with
        | none => otherwise elements
        | some pivot =>
            let (left, right) := split (less · pivot) false position elements
            let alike := leftPivot.any (fun before => !less before pivot) || left.isEmpty
            if alike then
              let (same, others) := split (fun a => !less pivot a) true position elements
              (partitions otherwise fuel (limit - 1) none others).map (same ++ ·)
            else do
              let left ← partitions otherwise fuel (limit - 1) leftPivot left
              let right ← partitions otherwise fuel (limit - 1) (some pivot) right
              return left ++ right

-- Sorts by partition, to a depth of twice the binary logarithm of the length.
def byPartition (otherwise : List α → Option (List α)) (elements : List α) : Option (List α) :=
  partitions less otherwise elements.length (2 * Nat.log2 elements.length) none elements

end ShardQuery.Sort
