import ShardQuery.Text.Fold
/-!
Directories for spill files, named by paths: one file system, on which engines run unless they are given another.
Every directory on the way is made unless it is there, so a path is usable if it leads through no file
and ends where files can be made. What holds of engines is shown over every file system.
-/

set_option autoImplicit false

namespace ShardQuery.Directory

abbrev Names := List String

-- Empty names and single points lead nowhere.
def names (path : String) : Names := (path.splitOn "/").filter fun name => name != "" && name != "."

def isAbsolute (path : String) : Bool := path.startsWith "/"

def alike (a b : String) : Bool := isAbsolute a == isAbsolute b && names a == names b

-- Devices and files of every system, below which there are no directories.
def files : List Names := [
  ["dev", "null"], ["dev", "zero"], ["dev", "full"], ["dev", "random"], ["dev", "urandom"], ["dev", "tty"],
  ["dev", "console"], ["dev", "ptmx"], ["dev", "stdin"], ["dev", "stdout"], ["dev", "stderr"],
  ["dev", "fd"], ["dev", "core"], ["etc", "passwd"], ["etc", "group"], ["etc", "shadow"],
  ["etc", "hosts"], ["etc", "hostname"], ["etc", "resolv.conf"], ["etc", "fstab"], ["etc", "mtab"],
  ["bin", "sh"]]

def closed : List Names := [["proc"], ["proc", "self"], ["sys"], ["dev", "pts"]]

def links : List (Names × Names) := [(["proc", "self", "root"], []), (["proc", "self", "cwd"], ["home"])]

def longestName : Nat := 255

def longestPath : Nat := 4095

def size (text : String) : Nat := (Text.utf8 text).length

def leads (here : Names) : Names → Bool
  | [] => !closed.contains here
  | name :: rest =>
      if name == ".." then leads here.dropLast rest
      else
        let next := here ++ [name]
        match links.lookup next with
        | some target => leads target rest
        | none =>
            !files.contains next && size name ≤ longestName && (closed.contains next || !closed.contains here) &&
              leads next rest

def pathSize (path : String) (nameSize : Nat) : Nat :=
  size path + (if path == "" || path.endsWith "/" then 0 else 1) + nameSize

def usable (path : String) (nameSize : Nat) : Bool :=
  !path.toList.contains (Char.ofNat 0) && pathSize path nameSize ≤ longestPath &&
    if isAbsolute path then leads [] (names path) else (names path).all (size · ≤ longestName)

end ShardQuery.Directory
