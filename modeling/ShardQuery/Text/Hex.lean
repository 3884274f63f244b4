import ShardQuery.Text.Fold
import ShardQuery.Bytes
/-!
Lowercase hexadecimal text of words and byte strings. Main statement: reading the written form of a
byte string gives the byte string.
-/

set_option autoImplicit false

namespace ShardQuery.Text.Hex

def digit (n : Nat) : Char := "0123456789abcdef".toList.getD n '0'

def digit? (c : Char) : Option Nat :=
  if '0' ≤ c ∧ c ≤ '9' then some (c.toNat - '0'.toNat)
  else if 'a' ≤ c ∧ c ≤ 'f' then some (c.toNat - 'a'.toNat + 10)
  else if 'A' ≤ c ∧ c ≤ 'F' then some (c.toNat - 'A'.toNat + 10)
  else none

def ofByte (b : UInt8) : List Char := [digit (b.toNat / 16), digit (b.toNat % 16)]

def encode (bytes : Bytes) : String := String.ofList (bytes.flatMap ofByte)

def decodeChars : List Char → Option Bytes
  | [] => some []
  | high :: low :: rest => do
      let h ← digit? high
      let l ← digit? low
      let bytes ← decodeChars rest
      return UInt8.ofNat (16 * h + l) :: bytes
  | [_] => none

def decode? (text : String) : Option Bytes := decodeChars text.toList

def ofWord (w : UInt64) : String := encode (Bytes.word64 w).reverse

def word? (text : String) : Option UInt64 :=
  if text.isEmpty || text.toList.length > 16 then none
  else (text.toList.foldlM (fun (n : Nat) c => (digit? c).map (16 * n + ·)) 0).map UInt64.ofNat

theorem digit_digit : ∀ n < 16, digit? (digit n) = some n := by decide

theorem decode_flatMap (bytes : Bytes) : decodeChars (bytes.flatMap ofByte) = some bytes := by
  induction bytes with
  | nil => rfl
  | cons b rest ih =>
      have byte : b.toNat < 256 := b.toNat_lt
      have high := digit_digit (b.toNat / 16) (by omega)
      have low := digit_digit (b.toNat % 16) (by omega)
      have whole : 16 * (b.toNat / 16) + b.toNat % 16 = b.toNat := by omega
      simp only [List.flatMap_cons, ofByte, List.cons_append, List.nil_append, decodeChars, high, low, ih,
        Option.bind_eq_bind, Option.bind_some, whole, UInt8.ofNat_toNat]
      rfl

theorem decode_encode (bytes : Bytes) : decode? (encode bytes) = some bytes := by
  simp [decode?, encode, decode_flatMap]

end ShardQuery.Text.Hex
