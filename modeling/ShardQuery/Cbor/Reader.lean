import ShardQuery.Cbor.Item
/-!
Reading CBOR items from bytes. Heads of any size and indefinite lengths are understood; reading fails
on cut or unassigned bytes and when more than `maxDepth` maps, arrays and tags are open at once.
-/

set_option autoImplicit false

namespace ShardQuery.Cbor

def maxDepth : Nat := 127

inductive Head where
  | sized (major argument : Nat)
  | indefinite (major : Nat)
  | simple (code : Nat)
  | float (width : Nat)
  | stop
deriving DecidableEq

def take? (count : Nat) (bytes : Bytes) : Option (Bytes × Bytes) :=
  let front := bytes.take count
  if front.length < count then none else some (front, bytes.drop count)

def readBig? (width : Nat) (bytes : Bytes) : Option (Nat × Bytes) :=
  (take? width bytes).map fun (front, rest) => (Bytes.value front.reverse, rest)

def widthOf? : Nat → Option Nat
  | 24 => some 1
  | 25 => some 2
  | 26 => some 4
  | 27 => some 8
  | _ => none

def readHead? : Bytes → Option (Head × Bytes)
  | [] => none
  | first :: rest =>
      let major := first.toNat / 32
      let info := first.toNat % 32
      if major = 7 then
        if info = 31 then some (.stop, rest)
        else if 20 ≤ info ∧ info < 24 then some (.simple info, rest)
        else if 25 ≤ info ∧ info < 28 then some (.float (2 ^ (info - 24)), rest)
        else none
      else if info < 24 then some (.sized major info, rest)
      else if info = 31 then if major < 2 then none else some (.indefinite major, rest)
      else do
        let width ← widthOf? info
        let (argument, rest) ← readBig? width rest
        return (.sized major argument, rest)

def readChunks? (major : Nat) : Nat → Bytes → Option (Bytes × Bytes)
  | 0, _ => none
  | fuel + 1, bytes => do
      let (head, rest) ← readHead? bytes
      match head with
      | .stop => return ([], rest)
      | .sized other count =>
          if other = major then
            let (chunk, rest) ← take? count rest
            let (chunks, rest) ← readChunks? major fuel rest
            return (chunk ++ chunks, rest)
          else none
      | _ => none

def simple? : Nat → Option Item
  | 20 => some (.bool false)
  | 21 => some (.bool true)
  | 22 => some .null
  | 23 => some .undefined
  | _ => none

-- A map, by the bytes that it begins with.
def mapBegun (bytes : Bytes) (members : List (Item × Item)) : Item :=
  if (head 5 members.length).isPrefixOf bytes then .map members else .looseMap members

def isStop : Bytes → Bool
  | first :: _ => first == 0xff
  | [] => false

mutual
-- One item. `fuel` bounds the items read along any path and `room` the items that may still be opened.
def readItem? : Nat → Nat → Bytes → Option (Item × Bytes)
  | 0, _, _ => none
  | fuel + 1, room, bytes =>
      match readHead? bytes with
      | none => none
      | some (.sized 0 n, rest) => some (.natural n, rest)
      | some (.sized 1 n, rest) => some (.negative n, rest)
      | some (.sized 2 count, rest) => (take? count rest).map fun (content, rest) => (.bytes content, rest)
      | some (.sized 3 count, rest) =>
          (take? count rest).bind fun (content, rest) =>
            (Text.ofUtf8? content).map fun s => (.text s, rest)
      | some (.sized 4 count, rest) =>
          if room = 0 then none
          else (readItems? fuel (room - 1) count rest).map fun (items, rest) => (.array items, rest)
      | some (.sized 5 count, rest) =>
          if room = 0 then none
          else
            (readMembers? fuel (room - 1) count rest).map fun (members, rest) => (mapBegun bytes members, rest)
      | some (.sized 6 _, rest) =>
          if room = 0 then none
          else (readItem? fuel (room - 1) rest).map fun (item, rest) => (.tagged item, rest)
      | some (.sized _ _, _) => none
      | some (.indefinite 2, rest) =>
          (readChunks? 2 bytes.length rest).map fun (content, rest) => (.bytes content, rest)
      | some (.indefinite 3, rest) =>
          (readChunks? 3 bytes.length rest).bind fun (content, rest) =>
            (Text.ofUtf8? content).map fun s => (.text s, rest)
      | some (.indefinite 4, rest) =>
          if room = 0 then none
          else (readItemsToStop? fuel (room - 1) rest).map fun (items, rest) => (.array items, rest)
      | some (.indefinite 5, rest) =>
          if room = 0 then none
          else (readMembersToStop? fuel (room - 1) rest).map fun (members, rest) => (.looseMap members, rest)
      | some (.indefinite _, _) => none
      | some (.simple code, rest) => (simple? code).map (·, rest)
      | some (.float width, rest) => (take? width rest).map fun (_, rest) => (.float, rest)
      | some (.stop, _) => none

def readItems? : Nat → Nat → Nat → Bytes → Option (List Item × Bytes)
  | _, _, 0, bytes => some ([], bytes)
  | 0, _, _ + 1, _ => none
  | fuel + 1, room, count + 1, bytes =>
      (readItem? fuel room bytes).bind fun (item, rest) =>
        (readItems? fuel room count rest).map fun (items, rest) => (item :: items, rest)

def readMembers? : Nat → Nat → Nat → Bytes → Option (List (Item × Item) × Bytes)
  | _, _, 0, bytes => some ([], bytes)
  | 0, _, _ + 1, _ => none
  | fuel + 1, room, count + 1, bytes =>
      (readItem? fuel room bytes).bind fun (key, rest) =>
        (readItem? fuel room rest).bind fun (item, rest) =>
          (readMembers? fuel room count rest).map fun (members, rest) => ((key, item) :: members, rest)

def readItemsToStop? : Nat → Nat → Bytes → Option (List Item × Bytes)
  | 0, _, _ => none
  | fuel + 1, room, bytes =>
      if isStop bytes then some ([], bytes.drop 1)
      else
        (readItem? fuel room bytes).bind fun (item, rest) =>
          (readItemsToStop? fuel room rest).map fun (items, rest) => (item :: items, rest)

def readMembersToStop? : Nat → Nat → Bytes → Option (List (Item × Item) × Bytes)
  | 0, _, _ => none
  | fuel + 1, room, bytes =>
      if isStop bytes then some ([], bytes.drop 1)
      else
        (readItem? fuel room bytes).bind fun (key, rest) =>
          (readItem? fuel room rest).bind fun (item, rest) =>
            (readMembersToStop? fuel room rest).map fun (members, rest) => ((key, item) :: members, rest)
end

def decode? (bytes : Bytes) : Option Item :=
  match readItem? (2 * bytes.length + 2) maxDepth bytes with
  | some (item, []) => some item
  | _ => none

end ShardQuery.Cbor
