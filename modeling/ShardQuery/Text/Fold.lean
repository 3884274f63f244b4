import ShardQuery.Bytes
/-!
Names that differ in the case of ASCII letters only, padding, joining, and the bytes of a text.
-/

set_option autoImplicit false

namespace ShardQuery.Text

-- Folds `A` to `Z` and leaves every other character alone.
def fold (name : String) : String := String.ofList (name.toList.map Char.toLower)

-- Equality up to the case of ASCII letters.
def same (a b : String) : Bool := a.toList.map Char.toLower == b.toList.map Char.toLower

theorem same_iff (a b : String) : same a b = true ↔ fold a = fold b := by
  simp [same, fold, String.ofList_inj]

-- Blanks on the right until the text has `width` characters; a longer text stays whole.
def padRight (width : Nat) (text : String) : String :=
  String.ofList (text.toList ++ List.replicate (width - text.toList.length) ' ')

def padZero (width : Nat) (digits : List Char) : List Char :=
  List.replicate (width - digits.length) '0' ++ digits

def join (separator : String) (parts : List String) : String := separator.intercalate parts

def quoted (text : String) : String := "'" ++ text ++ "'"

def utf8 (text : String) : Bytes := text.toUTF8.data.toList

def ofUtf8? (bytes : Bytes) : Option String := String.fromUTF8? ⟨bytes.toArray⟩

theorem ofUtf8_utf8 (text : String) : ofUtf8? (utf8 text) = some text := by
  rw [ofUtf8?, utf8, Array.toArray_toList, String.fromUTF8?]
  exact dif_pos text.isValidUTF8

end ShardQuery.Text
