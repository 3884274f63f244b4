/-!
Stable sorts of short lists by a test `less`. The outcome is determined for every test, also for one
that is no order: then it shows which elements were compared, and it may be that there is no result.
-/

set_option autoImplicit false

namespace ShardQuery.Sort

variable {α : Type} (less : α → α → Bool)

-- Moves an element past those right before it that are greater. The nearest one comes first.
def settle (a : α) : List α → List α
  | [] => [a]
  | b :: before => if less a b then b :: settle a before else a :: b :: before

def extend (placed more : List α) : List α :=
  (more.foldl (fun before a => settle less a before) placed.reverse).reverse

def insertion (elements : List α) : List α := extend less [] elements

-- Four elements by five comparisons: two pairs, their least and greatest, and the two between.
def four (a b c d : α) : List α :=
  let (a, b) := if less b a then (b, a) else (a, b)
  let (c, d) := if less d c then (d, c) else (c, d)
  let (least, greatest, left, right) :=
    match less c a, less d b with
    | false, false => (a, d, b, c)
    | false, true => (a, b, c, d)
    | true, false => (c, d, a, b)
    | true, true => (c, b, a, d)
  if less right left then [least, right, left, greatest] else [least, left, right, greatest]

-- A half of a short list: its first four elements at once, the others one by one.
def half : List α → List α
  | a :: b :: c :: d :: more => extend less (four less a b c d) more
  | few => insertion less few

def merge : List α → List α → List α
  | [], right => right
  | left, [] => left
  | a :: left, b :: right =>
      if less b a then b :: merge (a :: left) right else a :: merge left (b :: right)
termination_by left right => left.length + right.length

-- Merges two sorted lists from the back. Both are given in reverse, as is the result.
def mergeBack : List α → List α → List α
  | [], right => right
  | left, [] => left
  | a :: left, b :: right =>
      if less b a then a :: mergeBack left (b :: right) else b :: mergeBack (a :: left) right
termination_by left right => left.length + right.length

def mergeRuns (left right : List α) : List α :=
  if left.isEmpty || right.isEmpty then left ++ right
  else if left.length ≤ right.length then merge less left right
  else (mergeBack less left.reverse right.reverse).reverse

def takeMerged : Nat → List α → List α → List α × List α × List α
  | count + 1, a :: left, b :: right =>
      if less b a then
        let (taken, rest) := takeMerged count (a :: left) right
        (b :: taken, rest)
      else
        let (taken, rest) := takeMerged count left (b :: right)
        (a :: taken, rest)
  | _, left, right => ([], left, right)

def takeMergedBack : Nat → List α → List α → List α × List α × List α
  | count + 1, a :: left, b :: right =>
      if less b a then
        let (taken, rest) := takeMergedBack count left (b :: right)
        (a :: taken, rest)
      else
        let (taken, rest) := takeMergedBack count (a :: left) right
        (b :: taken, rest)
  | _, left, right => ([], left, right)

-- Merges two halves from both ends at once. The one element that may be left between the two ends comes last.
-- Ends that run past each other show that `less` is no order, and there is no result.
def mergeEnds (left right : List α) : Option (List α) :=
  let size := left.length + right.length
  let (front, leftAfter, rightAfter) := takeMerged less (size / 2) left right
  let (back, leftBefore, rightBefore) := takeMergedBack less (size / 2) left.reverse right.reverse
  let between := if left.length < leftAfter.length + leftBefore.length then leftAfter else rightAfter
  if left.length ≤ leftAfter.length + leftBefore.length ∧ right.length ≤ rightAfter.length + rightBefore.length then
    some (front ++ between.take (size % 2) ++ back.reverse)
  else none

def short (elements : List α) : Option (List α) :=
  let middle := elements.length / 2
  let part := if elements.length < 8 then insertion less else half less
  if elements.length < 2 then some elements
  else mergeEnds less (part (elements.take middle)) (part (elements.drop middle))

def shortLength : Nat := 32

end ShardQuery.Sort
