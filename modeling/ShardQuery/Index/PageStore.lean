import ShardQuery.Step
import ShardQuery.SortedMap
import ShardQuery.Config
import ShardQuery.Directory
/-!
Where evicted pages go: a map in memory, or a file in which each page has its offset. The file is
made by the first write, in a directory that the file system at hand lets files be made in; pages below
its end that were never written read as zeros.
-/

set_option autoImplicit false

namespace ShardQuery

-- Whether files can be made in a directory, none for the standard place: what a file system answers.
abbrev Directories := Option String → Bool

class PageMedium (σ : Type) where
  read : PageId → Step σ Bytes
  write : PageId → Bytes → Step σ Unit

structure SpillFile where
  pages : SortedMap PageId Bytes
  reads : Nat
  writes : Nat
  -- A call broke off and never gave the file back.
  held : Bool

namespace SpillFile

def empty : SpillFile := ⟨.empty, 0, 0, false⟩

def isHeld : EngineError := .io "the spill file is held by a call that broke off"

-- Where a page begins: a word of 64 bits, and no file goes further than half of them.
def placeOf (pageSize : Nat) (id : PageId) : Outcome Nat :=
  let place := id.toNat * pageSize
  if 2 ^ 64 ≤ place then .error (.brokeOff .productTooLarge)
  else if 2 ^ 63 ≤ place then .error (.io "no file reaches the page")
  else .ok place

-- Goes to the place of a page.
def seek (spill : SpillFile) (pageSize : Nat) (id : PageId) : Outcome Nat :=
  if spill.held then .error isHeld else placeOf pageSize id

def reaches (spill : SpillFile) (pageSize : Nat) (id : PageId) : Bool :=
  pageSize == 0 || spill.pages.keys.any (id ≤ ·)

def page (spill : SpillFile) (pageSize : Nat) (id : PageId) : Outcome Bytes := do
  let _ ← spill.seek pageSize id
  if Bytes.largest < pageSize then throw (.brokeOff .bufferTooLarge)
  if spill.reaches pageSize id then
    return (spill.pages.get? id).getD (List.replicate pageSize 0)
  else throw (.io "the spill file ends before the page")

end SpillFile

inductive PageStore where
  | memory (pages : SortedMap PageId Bytes) (reads writes : Nat)
  -- `usable` tells whether files can be made in the directory.
  | file (usable : Bool) (pageSize : Nat) (contents : Option SpillFile)

namespace PageStore

def inMemory : PageStore := .memory .empty 0 0

def inDirectory (usable : Bool) (pageSize : Nat) : PageStore := .file usable pageSize none

def nameSize : Nat := 27

-- The directories of the file system at hand in which files can be made.
def usableDirectory : Directories
  | some path => Directory.usable path nameSize
  | none => true

def ofConfig (config : Config) (directories : Directories := usableDirectory) : PageStore :=
  if config.spillToDisk then inDirectory (directories config.spillDir) config.pageSize else inMemory

def neverWritten (id : PageId) : EngineError := .internal s!"page {id.toNat} was never written"

def read (id : PageId) : Step PageStore Bytes := do
  match ← get with
  | .memory pages reads writes =>
      set (PageStore.memory pages (reads + 1) writes)
      match pages.get? id with
      | some bytes => return bytes
      | none => throw (neverWritten id)
  | .file _ _ none => throw (neverWritten id)
  | .file usable pageSize (some spill) =>
      let found := spill.page pageSize id
      set (PageStore.file usable pageSize
        (some { spill with reads := spill.reads + 1, held := spill.held || found.breaksOff }))
      Step.ofOutcome found

def write (id : PageId) (bytes : Bytes) : Step PageStore Unit := do
  match ← get with
  | .memory pages reads writes => set (PageStore.memory (pages.insert id bytes) reads (writes + 1))
  | .file usable pageSize contents =>
      if !usable && contents.isNone then throw (.io "the spill directory cannot be made")
      let spill := contents.getD .empty
      set (PageStore.file usable pageSize (some spill))
      if bytes.length != pageSize then
        throw (.internal s!"page {id.toNat} has {bytes.length} bytes, expected {pageSize}")
      let place := spill.seek pageSize id
      set (PageStore.file usable pageSize (some { spill with
        pages := if place.isOk then spill.pages.insert id bytes else spill.pages
        writes := spill.writes + 1
        held := spill.held || place.breaksOff }))
      Step.ofOutcome (place.map fun _ => ())

instance : PageMedium PageStore := ⟨read, write⟩

def readCount : PageStore → Nat
  | .memory _ reads _ => reads
  | .file _ _ contents => (contents.map (·.reads)).getD 0

def writeCount : PageStore → Nat
  | .memory _ _ writes => writes
  | .file _ _ contents => (contents.map (·.writes)).getD 0

def fileCount : PageStore → Nat
  | .file _ _ (some _) => 1
  | _ => 0

end PageStore

end ShardQuery
