/-!
Byte strings and the little-endian form of numbers. Main statement: reading back `width` bytes of a
number gives the number modulo `256 ^ width`.
-/

set_option autoImplicit false

namespace ShardQuery

-- Powers are the built-in ones, also where a library brings others.
@[default_instance 10001]
instance (priority := 1100) builtinPow {α : Type} [NatPow α] : Pow α Nat := instPowNat

abbrev Bytes := List UInt8

namespace Bytes

-- The most bytes that one buffer holds.
def largest : Nat := 2 ^ 63 - 1

-- The low `width` bytes of a number, least significant first.
def little : Nat → Nat → Bytes
  | 0, _ => []
  | width + 1, n => UInt8.ofNat (n % 256) :: little width (n / 256)

def value : Bytes → Nat
  | [] => 0
  | b :: rest => b.toNat + 256 * value rest

def word16 (w : UInt16) : Bytes := little 2 w.toNat
def word32 (w : UInt32) : Bytes := little 4 w.toNat
def word64 (w : UInt64) : Bytes := little 8 w.toNat

-- Two's complement, so equal bytes mean equal signed words.
def signed64 (w : Int64) : Bytes := word64 w.toUInt64

@[simp] theorem little_length (width n : Nat) : (little width n).length = width := by
  induction width generalizing n with
  | zero => rfl
  | succ width ih => simp [little, ih]

theorem value_little (width n : Nat) : value (little width n) = n % 256 ^ width := by
  induction width generalizing n with
  | zero => simp [little, value, Nat.mod_one]
  | succ width ih =>
      have small : n % 256 < 256 := Nat.mod_lt _ (by decide)
      rw [little, value, ih, UInt8.toNat_ofNat_of_lt' small, Nat.pow_succ, Nat.mul_comm (256 ^ width),
        Nat.mod_mul]

theorem word64_inj {a b : UInt64} (same : word64 a = word64 b) : a = b := by
  have small (w : UInt64) : w.toNat < 256 ^ 8 := w.toNat_lt
  have values := congrArg value same
  rw [word64, word64, value_little, value_little, Nat.mod_eq_of_lt (small a), Nat.mod_eq_of_lt (small b)] at values
  exact UInt64.toNat_inj.mp values

theorem signed64_inj {a b : Int64} (same : signed64 a = signed64 b) : a = b :=
  congrArg Int64.ofUInt64 (word64_inj same)

theorem value_lt (bytes : Bytes) : value bytes < 256 ^ bytes.length := by
  induction bytes with
  | nil => decide
  | cons b rest ih =>
      have byte : b.toNat < 256 := b.toNat_lt
      simp only [value, List.length_cons, Nat.pow_succ]
      omega

theorem little_value (bytes : Bytes) : little bytes.length (value bytes) = bytes := by
  induction bytes with
  | nil => rfl
  | cons b rest ih =>
      have byte : b.toNat < 256 := b.toNat_lt
      have digit : (b.toNat + 256 * value rest) % 256 = b.toNat := by omega
      have others : (b.toNat + 256 * value rest) / 256 = value rest := by omega
      simp only [List.length_cons, little, value, digit, others, ih]
      rw [UInt8.ofNat_toNat]

end Bytes

end ShardQuery
