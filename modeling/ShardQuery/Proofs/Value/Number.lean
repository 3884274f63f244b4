import Mathlib.Algebra.Order.Field.Rat
import Mathlib.Tactic.FieldSimp
import Mathlib.Tactic.Ring
import ShardQuery.Proofs.Value.Converted
import ShardQuery.Value.Canonical
/-!
The rational number that a value denotes. Main statements: a number is the same at every larger scale, and two decimals
leave the same without their trailing zeros exactly if they denote the same number.
-/

set_option autoImplicit false

namespace ShardQuery

namespace Scaled

def rational (number : Scaled) : ℚ := number.unscaled / 10 ^ number.scale.toNat

theorem ten_pow_pos (exponent : Nat) : (0 : ℚ) < 10 ^ exponent := pow_pos (by decide) exponent

-- The number at a scale that is no smaller.
theorem rational_at (number : Scaled) {scale : Nat} (finer : number.scale.toNat ≤ scale) :
    number.rational = (number.unscaled * 10 ^ (scale - number.scale.toNat) : Int) / 10 ^ scale := by
  have split : (10 : ℚ) ^ scale = 10 ^ (scale - number.scale.toNat) * 10 ^ number.scale.toNat := by
    rw [← pow_add, Nat.sub_add_cancel finer]
  have nonzero := (ten_pow_pos (scale - number.scale.toNat)).ne'
  rw [rational, split, Int.cast_mul, Int.cast_pow, Int.cast_ofNat]
  field_simp

theorem rational_eq_iff (a b : Scaled) :
    a.rational = b.rational ↔ a.unscaled * 10 ^ b.scale.toNat = b.unscaled * 10 ^ a.scale.toNat := by
  rw [rational, rational, div_eq_div_iff (ten_pow_pos _).ne' (ten_pow_pos _).ne']
  exact_mod_cast Iff.rfl

end Scaled

namespace Value

-- The number that the value denotes, if it is one.
def rational? (v : Value) : Option ℚ := v.scaled?.map Scaled.rational

-- What is left of a number when trailing zeros are taken off, at most as many as it has digits behind the point.
theorem reduce_back (n : Int) (scale : Nat) :
    (reduce n scale).2 ≤ scale ∧ n = (reduce n scale).1 * 10 ^ (scale - (reduce n scale).2) := by
  induction scale generalizing n with
  | zero => exact ⟨Nat.le_refl 0, (Int.mul_one n).symm⟩
  | succ scale ih =>
      rw [reduce]
      split
      · rename_i divides
        obtain ⟨fewer, back⟩ := ih (n.tdiv 10)
        refine ⟨Nat.le_succ_of_le fewer, ?_⟩
        rw [Nat.succ_sub fewer, Int.pow_succ, ← Int.mul_assoc, ← back]
        exact (Int.tdiv_mul_cancel_of_tmod_eq_zero divides).symm
      · dsimp only
        rw [Nat.sub_self]
        exact ⟨Nat.le_refl _, (Int.mul_one n).symm⟩

theorem reduce_small (n : Int) (scale : Nat) : (reduce n scale).1.natAbs ≤ n.natAbs := by
  have back := congrArg Int.natAbs (reduce_back n scale).2
  rw [Int.natAbs_mul, Int.natAbs_pow] at back
  rw [back]
  exact Nat.le_mul_of_pos_right _ (Nat.pow_pos (by decide))

-- No zero is left to be taken off.
theorem reduce_done (n : Int) (scale : Nat) : (reduce n scale).2 ≠ 0 → ¬10 ∣ (reduce n scale).1 := by
  induction scale generalizing n with
  | zero => exact fun some => absurd rfl some
  | succ scale ih =>
      rw [reduce]
      split
      · exact ih _
      · rename_i left
        exact fun _ divides => left (Int.tmod_eq_zero_of_dvd divides)

theorem reduced_le {m n : Int} {digits digits' : Nat} (done : digits' ≠ 0 → ¬10 ∣ n)
    (same : m * 10 ^ digits' = n * 10 ^ digits) : digits' ≤ digits := by
  by_contra longer
  obtain ⟨more, rfl⟩ := Nat.exists_eq_add_of_lt (Nat.lt_of_not_le longer)
  refine done (Nat.succ_ne_zero _) ⟨m * 10 ^ more, ?_⟩
  have positive : (10 : Int) ^ digits ≠ 0 := pow_ne_zero _ (by decide)
  apply Int.eq_of_mul_eq_mul_right positive
  calc
    n * 10 ^ digits = m * 10 ^ (digits + more + 1) := same.symm
    _ = 10 * (m * 10 ^ more) * 10 ^ digits := by ring

theorem reduce_eq_iff (m n : Int) (scale scale' : Nat) :
    reduce m scale = reduce n scale' ↔ m * 10 ^ scale' = n * 10 ^ scale := by
  obtain ⟨fewer, back⟩ := reduce_back m scale
  obtain ⟨fewer', back'⟩ := reduce_back n scale'
  have done := reduce_done m scale
  have done' := reduce_done n scale'
  generalize reduce m scale = left at *
  generalize reduce n scale' = right at *
  obtain ⟨a, digits⟩ := left
  obtain ⟨b, digits'⟩ := right
  dsimp only at *
  have positive (exponent : Nat) : (10 : Int) ^ exponent ≠ 0 := pow_ne_zero _ (by decide)
  have same : m * 10 ^ scale' = n * 10 ^ scale ↔ a * 10 ^ digits' = b * 10 ^ digits := by
    have widened : m * 10 ^ scale' * 10 ^ (digits + digits') = a * 10 ^ digits' * 10 ^ (scale + scale') := by
      rw [back, mul_assoc, mul_assoc, mul_assoc, ← pow_add, ← pow_add, ← pow_add]
      congr 2
      omega
    have widened' : n * 10 ^ scale * 10 ^ (digits + digits') = b * 10 ^ digits * 10 ^ (scale + scale') := by
      rw [back', mul_assoc, mul_assoc, mul_assoc, ← pow_add, ← pow_add, ← pow_add]
      congr 2
      omega
    constructor
    · intro same
      exact Int.eq_of_mul_eq_mul_right (positive _) (widened.symm.trans ((congrArg (· * _) same).trans widened'))
    · intro same
      exact Int.eq_of_mul_eq_mul_right (positive _) (widened.trans ((congrArg (· * _) same).trans widened'.symm))
  rw [same]
  constructor
  · rintro ⟨⟩
    rfl
  · intro same
    obtain rfl : digits = digits' := Nat.le_antisymm (reduced_le done same.symm) (reduced_le done' same)
    rw [Int.eq_of_mul_eq_mul_right (positive _) same]

-- The digits that are left fit the words they are written in.
theorem reduced_fits (n : Int64) (scale : UInt8) :
    (Int64.ofInt (reduce n.toInt scale.toNat).1).toInt = (reduce n.toInt scale.toNat).1 ∧
      (UInt8.ofNat (reduce n.toInt scale.toNat).2).toNat = (reduce n.toInt scale.toNat).2 := by
  obtain ⟨fewer, back⟩ := reduce_back n.toInt scale.toNat
  have bound := reduce_small n.toInt scale.toNat
  have low := n.le_toInt
  have high := n.toInt_lt
  have sign (positive : 0 ≤ (reduce n.toInt scale.toNat).1) : 0 ≤ n.toInt := by
    rw [back]
    exact Int.mul_nonneg positive (Int.pow_nonneg (by decide))
  exact ⟨Int64.toInt_ofInt_of_le (by omega) (by omega),
    UInt8.toNat_ofNat_of_lt' (Nat.lt_of_le_of_lt fewer scale.toNat_lt)⟩

theorem decimal_canonical_iff (m n : Int64) (scale scale' : UInt8) :
    (decimal m scale).canonical = (decimal n scale').canonical ↔
      (decimal m scale).rational? = (decimal n scale').rational? := by
  obtain ⟨unscaled, digits⟩ := reduced_fits m scale
  obtain ⟨unscaled', digits'⟩ := reduced_fits n scale'
  have denoted : (decimal m scale).rational? = (decimal n scale').rational? ↔
      reduce m.toInt scale.toNat = reduce n.toInt scale'.toNat :=
    (Option.some.injEq _ _).to_iff.trans ((Scaled.rational_eq_iff _ _).trans (reduce_eq_iff _ _ _ _).symm)
  rw [denoted]
  constructor
  · intro same
    obtain ⟨words, scales⟩ := List.append_inj (List.cons.inj same).2 (by simp [Bytes.signed64, Bytes.word64])
    have words := congrArg Int64.toInt (Bytes.signed64_inj words)
    have scales := congrArg UInt8.toNat (List.singleton_inj.mp scales)
    exact Prod.ext (unscaled ▸ unscaled' ▸ words) (digits ▸ digits' ▸ scales)
  · intro same
    rw [canonical, canonical, same]

end Value

end ShardQuery
