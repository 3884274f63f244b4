import ShardQuery.Cbor.Reader
/-!
The shapes in which typed data is written as CBOR items: numbers within a range, texts, lists, optional
parts, structures as maps from field names, and variants as a name with or without content. How items of a
declared type are made and taken apart is a parameter (`Forms`). The forms at hand, `Forms.derived`, take the
fields of a structure in any order, or by their positions, and ignore fields that they do not know.
-/

set_option autoImplicit false

namespace ShardQuery.Cbor

namespace Item

def ofInt (n : Int) : Item := if 0 ≤ n then .natural n.toNat else .negative (-1 - n).toNat

def ofWord (w : UInt64) : Item := .natural w.toNat

def ofSigned (w : Int64) : Item := ofInt w.toInt

def ofOption {α : Type} (write : α → Item) : Option α → Item
  | some a => write a
  | none => .null

def ofList {α : Type} (write : α → Item) (list : List α) : Item := .array (list.map write)

def ofFields (fields : List (String × Item)) : Item :=
  .map (fields.map fun field => (.text field.1, field.2))

def variant (name : String) (content : Item) : Item := .map [(.text name, content)]

-- The item under its tags, which carry no meaning here.
def untagged : Item → Item
  | .tagged item => untagged item
  | item => item

def natural? (bound : Nat) (item : Item) : Option Nat :=
  match item.untagged with
  | .natural n => if n < bound then some n else none
  | _ => none

def signed? (item : Item) : Option Int64 :=
  match item.untagged with
  | .natural n => if n < 2 ^ 63 then some (Int64.ofInt n) else none
  | .negative n => if n < 2 ^ 63 then some (Int64.ofInt (-1 - n)) else none
  | _ => none

def bool? (item : Item) : Option Bool :=
  match item.untagged with
  | .bool b => some b
  | _ => none

-- A text, or the bytes of one.
def text? (item : Item) : Option String :=
  match item.untagged with
  | .text s => some s
  | .bytes content => Text.ofUtf8? content
  | _ => none

def members? (item : Item) : Option (List (Item × Item)) :=
  match item.untagged with
  | .map members => some members
  | .looseMap members => some members
  | _ => none

def items? (item : Item) : Option (List Item) :=
  match item.untagged with
  | .array items => some items
  | _ => none

def unit? (item : Item) : Option Unit :=
  match item.untagged with
  | .null => some ()
  | .undefined => some ()
  | _ => none

-- A part that may be left out. Only an untagged null stands for no part.
def part? : Item → Option Item
  | .null => none
  | item => some item

-- The position of the name that a key stands for, `names.length` for a name of no field; none for an item that
-- is no key.
def position? (names : List String) (key : Item) : Option Nat :=
  match key.untagged with
  | .text s => some (names.idxOf s)
  | .bytes content => some ((Text.ofUtf8? content).elim names.length names.idxOf)
  | .natural i => some (min i names.length)
  | _ => none

-- Fields found by their keys, in the order of `names`; a field given twice is refused.
def arrange? (names : List String) (members : List (Item × Item)) : Option (List (Option Item)) := do
  let found ← members.mapM fun member => (position? names member.1).map (·, member.2)
  let known := found.filter fun entry => entry.1 < names.length
  if (known.map (·.1)).eraseDups.length < known.length then none
  return (List.range names.length).map fun i => (known.find? (·.1 == i)).map (·.2)

def fields? (names : List String) (item : Item) : Option (List (Option Item)) :=
  match item.untagged with
  | .map members => arrange? names members
  | .looseMap members => arrange? names members
  | .array items => if items.length = names.length then some (items.map some) else none
  | _ => none

-- The name of a variant by its position, and its content. A variant with content is a map of one member under
-- the one head that such a map needs, or an array of two items, and bears no tag.
def variant? (names : List String) : Item → Option (Nat × Option Item)
  | .map [(key, content)] => (position? names key).map (·, some content)
  | .array [key, content] => (position? names key).map (·, some content)
  | key => (position? names key).map (·, none)

end Item

-- What is written for the declared types of structures and variants, and what is taken for typed data when it is
-- read.
structure Forms where
  -- A structure, from its fields in the order of their declaration.
  fields : List (String × Item) → Item
  -- A variant without content.
  bare : String → Item
  variant : String → Item → Item
  natural? : Nat → Item → Option Nat
  signed? : Item → Option Int64
  bool? : Item → Option Bool
  text? : Item → Option String
  items? : Item → Option (List Item)
  members? : Item → Option (List (Item × Item))
  unit? : Item → Option Unit
  -- The part that an item stands for where a part may be left out.
  part? : Item → Option Item
  -- The fields of a structure in the order of their names, as far as they are there.
  fields? : List String → Item → Option (List (Option Item))
  -- The position of a variant among the names, and its content.
  variant? : List String → Item → Option (Nat × Option Item)

namespace Forms

def derived : Forms :=
  ⟨Item.ofFields, .text, Item.variant, Item.natural?, Item.signed?, Item.bool?, Item.text?, Item.items?, Item.members?,
    Item.unit?, Item.part?, Item.fields?, Item.variant?⟩

variable (forms : Forms)

def word? (item : Item) : Option UInt64 := (forms.natural? (2 ^ 64) item).map UInt64.ofNat

def byte? (item : Item) : Option UInt8 := (forms.natural? (2 ^ 8) item).map UInt8.ofNat

def list? {α : Type} (read : Item → Option α) (item : Item) : Option (List α) := (forms.items? item).bind (·.mapM read)

def pair? {α β : Type} (first : Item → Option α) (second : Item → Option β) (item : Item) : Option (α × β) :=
  match forms.items? item with
  | some [a, b] => (first a).bind fun x => (second b).map fun y => (x, y)
  | _ => none

def optional? {α : Type} (read : Item → Option α) (item : Item) : Option (Option α) :=
  match forms.part? item with
  | some part => (read part).map some
  | none => some none

def bare? : Option Item → Option Unit
  | none => some ()
  | some content => forms.unit? content

end Forms

end ShardQuery.Cbor
