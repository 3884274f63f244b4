import ShardQuery.Text.CaseData
/-!
Lowercasing by the full character data, the key under which names are looked up. A capital sigma
becomes the final small sigma at the end of a word.
-/

set_option autoImplicit false

namespace ShardQuery.Text

def cased (c : Char) : Bool := covered casedIntervals c.toNat

def ignorable (c : Char) : Bool := covered ignorableIntervals c.toNat

def lowerChar (c : Char) : List Char :=
  if c.toNat < 128 then [c.toLower]
  else if c.toNat = 0x130 then ['i', Char.ofNat 0x307]
  else
    match capitals.find? (·.covers c.toNat) with
    | some run => [Char.ofNat (c.toNat + run.shift).toNat]
    | none => [c]

def capitalSigma : Char := Char.ofNat 0x3a3
def smallSigma : Char := Char.ofNat 0x3c3
def finalSigma : Char := Char.ofNat 0x3c2

def opensWithCased : List Char → Bool
  | [] => false
  | c :: rest => if ignorable c then opensWithCased rest else cased c

-- `inWord` tells whether the last character that counts for word boundaries had case.
def lowerFrom (inWord : Bool) : List Char → List Char
  | [] => []
  | c :: rest =>
      let small :=
        if c = capitalSigma then
          if inWord && !opensWithCased rest then [finalSigma] else [smallSigma]
        else lowerChar c
      small ++ lowerFrom (if ignorable c then inWord else cased c) rest

def lowerChars (name : List Char) : List Char := lowerFrom false name

def lower (name : String) : String :=
  if name.toList.all (·.toNat < 128) then String.ofList (name.toList.map Char.toLower)
  else String.ofList (lowerChars name.toList)

end ShardQuery.Text
