/-!
A strict reader of JSON text. Each reader takes the characters that remain and returns what it read
together with the characters after it.
-/

set_option autoImplicit false

namespace ShardQuery

inductive Json where
  | null
  | bool (b : Bool)
  -- The number, when it is written as an integer from zero on without fraction and exponent.
  | number (natural : Option Nat)
  -- The text, unless an escape names half a character.
  | string (content : Option String)
  | array (items : List Json)
  -- The members in their order, repeated keys included.
  | object (members : List (Option String × Json))
deriving Inhabited

namespace Json

def isBlank (c : Char) : Bool := c == ' ' || c == '\n' || c == '\t' || c == '\r'

def skipBlank (cs : List Char) : List Char := cs.dropWhile isBlank

def hexDigit? (c : Char) : Option Nat :=
  if '0' ≤ c ∧ c ≤ '9' then some (c.toNat - 48)
  else if 'a' ≤ c ∧ c ≤ 'f' then some (c.toNat - 87)
  else if 'A' ≤ c ∧ c ≤ 'F' then some (c.toNat - 55)
  else none

def hexUnit? (a b c d : Char) : Option Nat := do
  let w ← hexDigit? a
  let x ← hexDigit? b
  let y ← hexDigit? c
  let z ← hexDigit? d
  return 4096 * w + 256 * x + 16 * y + z

def escape? : Char → Option Char
  | '"' => some '"'
  | '\\' => some '\\'
  | '/' => some '/'
  | 'b' => some '\x08'
  | 'f' => some '\x0c'
  | 'n' => some '\n'
  | 'r' => some '\r'
  | 't' => some '\t'
  | _ => none

-- The 16-bit units and characters of a string up to its closing quote.
def readUnits : List Char → Option (List (Nat ⊕ Char) × List Char)
  | [] => none
  | '"' :: rest => some ([], rest)
  | '\\' :: 'u' :: a :: b :: c :: d :: rest => do
      let unit ← hexUnit? a b c d
      let (units, after) ← readUnits rest
      return (.inl unit :: units, after)
  | '\\' :: c :: rest => do
      let escaped ← escape? c
      let (units, after) ← readUnits rest
      return (.inr escaped :: units, after)
  | c :: rest =>
      if c.toNat < 0x20 then none
      else do
        let (units, after) ← readUnits rest
        return (.inr c :: units, after)

-- Joins the two halves of a character; a half on its own is refused.
def joinUnits : List (Nat ⊕ Char) → Option (List Char)
  | [] => some []
  | .inr c :: rest => (joinUnits rest).map (c :: ·)
  | .inl high :: rest =>
      if 0xd800 ≤ high ∧ high < 0xdc00 then
        match rest with
        | .inl low :: after =>
            if 0xdc00 ≤ low ∧ low < 0xe000 then
              (joinUnits after).map
                (Char.ofNat (0x10000 + 0x400 * (high - 0xd800) + (low - 0xdc00)) :: ·)
            else none
        | _ => none
      else if 0xdc00 ≤ high ∧ high < 0xe000 then none
      else (joinUnits rest).map (Char.ofNat high :: ·)

def readString (cs : List Char) : Option (Option String × List Char) :=
  (readUnits cs).map fun (units, rest) => ((joinUnits units).map String.ofList, rest)

def digits (cs : List Char) : List Char × List Char := (cs.takeWhile Char.isDigit, cs.dropWhile Char.isDigit)

def natural (ds : List Char) : Nat := ds.foldl (fun n d => 10 * n + (d.toNat - 48)) 0

def readFraction : List Char → Option (Bool × List Char)
  | '.' :: rest =>
      let (ds, after) := digits rest
      if ds.isEmpty then none else some (true, after)
  | cs => some (false, cs)

def readExponent : List Char → Option (Bool × List Char)
  | c :: rest =>
      if c == 'e' || c == 'E' then
        let unsigned := match rest with
          | '+' :: more => more
          | '-' :: more => more
          | more => more
        let (ds, after) := digits unsigned
        if ds.isEmpty then none else some (true, after)
      else some (false, c :: rest)
  | [] => some (false, [])

def readNumber (cs : List Char) : Option (Json × List Char) := do
  let (negative, unsigned) := match cs with
    | '-' :: rest => (true, rest)
    | _ => (false, cs)
  let (ds, rest) := digits unsigned
  if ds.isEmpty || (ds.length > 1 && ds.head? == some '0') then none
  let (fraction, rest) ← readFraction rest
  let (exponent, rest) ← readExponent rest
  let plain := !negative && !fraction && !exponent
  return (.number (if plain then some (natural ds) else none), rest)

def readWord (word : List Char) (cs : List Char) : Option (List Char) :=
  if cs.take word.length == word then some (cs.drop word.length) else none

mutual
-- One value; `fuel` bounds the values and separators read, so the length of the text is enough.
def readValue : Nat → List Char → Option (Json × List Char)
  | 0, _ => none
  | fuel + 1, cs =>
      match skipBlank cs with
      | '"' :: rest => (readString rest).map fun (content, after) => (.string content, after)
      | '[' :: rest =>
          match skipBlank rest with
          | ']' :: after => some (.array [], after)
          | more => (readItems fuel more).map fun (items, after) => (.array items, after)
      | '{' :: rest =>
          match skipBlank rest with
          | '}' :: after => some (.object [], after)
          | more => (readMembers fuel more).map fun (members, after) => (.object members, after)
      | 'n' :: rest => (readWord ['u', 'l', 'l'] rest).map (.null, ·)
      | 't' :: rest => (readWord ['r', 'u', 'e'] rest).map (.bool true, ·)
      | 'f' :: rest => (readWord ['a', 'l', 's', 'e'] rest).map (.bool false, ·)
      | more => readNumber more

def readItems : Nat → List Char → Option (List Json × List Char)
  | 0, _ => none
  | fuel + 1, cs =>
      (readValue fuel cs).bind fun (item, rest) =>
        match skipBlank rest with
        | ']' :: after => some ([item], after)
        | ',' :: more => (readItems fuel more).map fun (items, after) => (item :: items, after)
        | _ => none

def readMembers : Nat → List Char → Option (List (Option String × Json) × List Char)
  | 0, _ => none
  | fuel + 1, cs =>
      match skipBlank cs with
      | '"' :: rest =>
          (readString rest).bind fun (key, rest) =>
            match skipBlank rest with
            | ':' :: rest =>
                (readValue fuel rest).bind fun (item, rest) =>
                  match skipBlank rest with
                  | '}' :: after => some ([(key, item)], after)
                  | ',' :: more =>
                      (readMembers fuel more).map fun (members, after) => ((key, item) :: members, after)
                  | _ => none
            | _ => none
      | _ => none
end

def parse? (text : String) : Option Json :=
  let cs := text.toList
  match readValue (2 * cs.length + 2) cs with
  | some (json, rest) => if (skipBlank rest).isEmpty then some json else none
  | none => none

end Json

end ShardQuery
