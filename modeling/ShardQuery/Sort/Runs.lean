import ShardQuery.Bytes
import ShardQuery.Sort.Partition
/-!
Sorting of long lists by runs: stretches that are sorted already are kept, other stretches are sorted
on their own or put together first, and neighbours are merged in a balanced way.
-/

set_option autoImplicit false

namespace ShardQuery.Sort

variable {α : Type} (less : α → α → Bool)

structure Run (α : Type) where
  elements : List α
  sorted : Bool

def stretch (falling : Bool) (a : α) : List α → Nat
  | [] => 0
  | b :: rest => if less b a == falling then stretch falling b rest + 1 else 0

def frontRun : List α → Nat × Bool
  | a :: b :: rest => (stretch less (less b a) b rest + 2, less b a)
  | few => (few.length, false)

def roughRoot (n : Nat) : Nat :=
  let shift := (1 + Nat.log2 n) / 2
  (2 ^ shift + n / 2 ^ shift) / 2

def goodLength (size : Nat) : Nat := if size ≤ 4096 then min (size - size / 2) 64 else roughRoot size

def nextRun (eager : Bool) (good : Nat) (elements : List α) : Option (Run α × List α) :=
  let (length, falling) := frontRun less elements
  if good ≤ elements.length ∧ good ≤ length then
    let front := elements.take length
    some (⟨if falling then front.reverse else front, true⟩, elements.drop length)
  else if eager then
    (short less (elements.take shortLength)).map fun front => (⟨front, true⟩, elements.drop shortLength)
  else some (⟨elements.take good, false⟩, elements.drop good)

-- The depth of the node between two neighbouring runs in a balanced tree of merges.
def mergeDepth (size first middle last : Nat) : Nat :=
  let scale := (2 ^ 62 + size - 1) / size
  let difference := scale * (first + middle) ^^^ scale * (middle + last)
  if difference = 0 then 64 else 63 - Nat.log2 difference

def Run.inOrder (sortPart : List α → Option (List α)) (run : Run α) : Option (List α) :=
  if run.sorted then some run.elements else sortPart run.elements

-- Joins neighbouring runs: unsorted ones stay so, others are sorted and merged.
def join (sortPart : List α → Option (List α)) (left right : Run α) : Option (Run α) :=
  if left.sorted || right.sorted then do
    return ⟨mergeRuns less (← left.inOrder sortPart) (← right.inOrder sortPart), true⟩
  else some ⟨left.elements ++ right.elements, false⟩

-- Joins a run with the runs before it that lie at least as deep; the nearest comes first.
def collapse (sortPart : List α → Option (List α)) (depth : Nat) :
    List (Run α × Nat) → Run α → Option (List (Run α × Nat) × Run α)
  | [], last => some ([], last)
  | (before, beforeDepth) :: rest, last =>
      if depth ≤ beforeDepth then do collapse sortPart depth rest (← join less sortPart before last)
      else some ((before, beforeDepth) :: rest, last)

-- Reads runs off the elements and joins them. `last` is the run before the elements, which ends at position
-- `done`.
def gather (eager : Bool) (sortPart : List α → Option (List α)) (size : Nat) :
    Nat → Nat → List (Run α × Nat) → Run α → List α → Option (Run α)
  | 0, _, before, last, _ => (collapse less sortPart 0 before last).map (·.2)
  | fuel + 1, done, before, last, elements =>
      if elements.isEmpty then (collapse less sortPart 0 before last).map (·.2)
      else do
        let (next, rest) ← nextRun less eager (goodLength size) elements
        let depth := mergeDepth size (done - last.elements.length) done (done + next.elements.length)
        let (before, last) ← collapse less sortPart depth before last
        gather eager sortPart size fuel (done + next.elements.length) ((last, depth) :: before) next rest

def byRuns (eager : Bool) (sortPart : List α → Option (List α)) (elements : List α) : Option (List α) := do
  let size := elements.length
  let (first, rest) ← nextRun less eager (goodLength size) elements
  let whole ← gather less eager sortPart size size first.elements.length [] first rest
  whole.inOrder sortPart

def insertionLength : Nat := 20

-- A stable sort whose outcome is determined for every test `less`. There is no result where the sort comes upon
-- comparisons that contradict each other.
def stable (elements : List α) : Option (List α) :=
  if elements.length ≤ insertionLength then some (insertion less elements)
  else
    byRuns less (elements.length ≤ 2 * shortLength) (byPartition less (byRuns less true some)) elements

end ShardQuery.Sort
