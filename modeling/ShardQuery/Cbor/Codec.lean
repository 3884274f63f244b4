import ShardQuery.Cbor.Shape
/-!
How items become bytes and bytes become items, as a parameter of everything that is stored. The codec at hand,
`Codec.compact`, writes definite lengths and the shortest heads.
-/

set_option autoImplicit false

namespace ShardQuery.Cbor

structure Codec where
  write : Item → Bytes
  -- The item that bytes begin with, while so many maps and arrays may still be opened, and the bytes behind it.
  next : Nat → Bytes → Option (Item × Bytes)
  -- The item that bytes are the form of.
  read : Bytes → Option Item

namespace Codec

-- So many items, one behind the other.
def nextItems (codec : Codec) (room : Nat) : Nat → Bytes → Option (List Item × Bytes)
  | 0, bytes => some ([], bytes)
  | count + 1, bytes =>
      (codec.next room bytes).bind fun (item, rest) =>
        (nextItems codec room count rest).map fun (items, rest) => (item :: items, rest)

-- So many keys, each with its item behind it.
def nextMembers (codec : Codec) (room : Nat) : Nat → Bytes → Option (List (Item × Item) × Bytes)
  | 0, bytes => some ([], bytes)
  | count + 1, bytes =>
      (codec.next room bytes).bind fun (key, rest) =>
        (codec.next room rest).bind fun (item, rest) =>
          (nextMembers codec room count rest).map fun (members, rest) => ((key, item) :: members, rest)

def compact : Codec := ⟨Item.encode, fun room bytes => readItem? (2 * bytes.length + 2) room bytes, decode?⟩

end Codec

end ShardQuery.Cbor
