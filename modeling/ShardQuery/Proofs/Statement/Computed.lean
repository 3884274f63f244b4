import ShardQuery.Proofs.Statement.Typed
import ShardQuery.Proofs.Value.Compared
/-!
Sums, differences and products of numbers. Main statement: at scales that a column can have, an operation gives exactly
the rational result at the scale of the operation, and fails with an overflow exactly if that takes more than 64 bits or
more digits than a column can have.
-/

set_option autoImplicit false

namespace ShardQuery

namespace Scaled

-- What an operation makes of two numbers, and the digits that it puts behind the point.
inductive Computes (a b : Scaled) : BinaryOp → ℚ → Nat → Prop
  | plus : Computes a b .plus (a.rational + b.rational) (max a.scale.toNat b.scale.toNat)
  | minus : Computes a b .minus (a.rational - b.rational) (max a.scale.toNat b.scale.toNat)
  | multiply : Computes a b .multiply (a.rational * b.rational) (a.scale.toNat + b.scale.toNat)

theorem wide_some {n wide : Int} (done : wide? n = some wide) : wide = n ∧ -(2 ^ 127) ≤ wide ∧ wide < 2 ^ 127 := by
  rw [wide?] at done
  split at done
  · rename_i fits
    cases done
    exact ⟨rfl, fits⟩
  · cases done

theorem product_rational (a b : Scaled) :
    a.rational * b.rational = (a.unscaled * b.unscaled : Int) / 10 ^ (a.scale.toNat + b.scale.toNat) := by
  rw [rational, rational, div_mul_div_comm, Int.cast_mul, pow_add]

variable {a b : Scaled} {op : BinaryOp} {result : ℚ} {digits : Nat}

-- What 128 bits hold of a result is the result.
theorem computed_exact (meant : a.Computes b op result digits) {wide : Int} {scale : UInt8}
    (computed : PlanExpr.compute? op a b = some (wide, scale)) :
    (wide : ℚ) / 10 ^ digits = result ∧ scale = UInt8.ofNat digits ∧ -(2 ^ 127) ≤ wide ∧ wide < 2 ^ 127 := by
  cases meant with
  | multiply =>
      simp only [PlanExpr.compute?] at computed
      split at computed
      · cases computed
      · obtain ⟨product, done, same⟩ := Option.map_eq_some_iff.mp computed
        obtain ⟨rfl, low, high⟩ := wide_some done
        cases same
        exact ⟨(product_rational a b).symm, rfl, low, high⟩
  | plus =>
      obtain ⟨⟨left, right, common⟩, aligned, computed⟩ := Option.bind_eq_some_iff.mp computed
      obtain ⟨first, second, digits⟩ := align_some aligned
      obtain ⟨sum, done, same⟩ := Option.map_eq_some_iff.mp computed
      obtain ⟨rfl, low, high⟩ := wide_some done
      cases same
      rw [first, second, ← digits, ← add_div, ← Int.cast_add]
      exact ⟨rfl, UInt8.ofNat_toNat.symm, low, high⟩
  | minus =>
      obtain ⟨⟨left, right, common⟩, aligned, computed⟩ := Option.bind_eq_some_iff.mp computed
      obtain ⟨first, second, digits⟩ := align_some aligned
      obtain ⟨difference, done, same⟩ := Option.map_eq_some_iff.mp computed
      obtain ⟨rfl, low, high⟩ := wide_some done
      cases same
      rw [first, second, ← digits, ← sub_div, ← Int.cast_sub]
      exact ⟨rfl, UInt8.ofNat_toNat.symm, low, high⟩

-- Two numbers of 64 bits are always added and subtracted within 128 bits. A product that takes more of them is too
-- long for 64 bits anyway.
theorem computed_of_fits (meant : a.Computes b op result digits) (small : a.unscaled.natAbs < 2 ^ 64)
    (small' : b.unscaled.natAbs < 2 ^ 64) (narrow : a.scale ≤ DataType.maxScale) (narrow' : b.scale ≤ DataType.maxScale)
    (few : digits ≤ DataType.maxScale.toNat) {word : Int64} (fits : (word.toInt : ℚ) = result * 10 ^ digits) :
    ∃ scale, PlanExpr.compute? op a b = some (word.toInt, scale) := by
  suffices computed : ∃ wide scale, PlanExpr.compute? op a b = some (wide, scale) by
    obtain ⟨wide, scale, computed⟩ := computed
    have exact := (computed_exact meant computed).1
    rw [← exact, div_mul_cancel₀ _ (ten_pow_pos digits).ne'] at fits
    exact ⟨scale, Int.cast_injective fits ▸ computed⟩
  cases meant with
  | multiply =>
      have product : word.toInt = a.unscaled * b.unscaled := by
        rw [product_rational, div_mul_cancel₀ _ (ten_pow_pos _).ne'] at fits
        exact Int.cast_injective fits
      have low := word.le_toInt
      have high := word.toInt_lt
      refine ⟨a.unscaled * b.unscaled, UInt8.ofNat (a.scale.toNat + b.scale.toNat), ?_⟩
      simp only [PlanExpr.compute?]
      rw [if_neg (Nat.not_lt.mpr few), ← product, wide?, if_pos (by omega)]
      rfl
  | plus =>
      obtain ⟨left, right, scale, aligned, bound, bound'⟩ := align_narrow small small' narrow narrow'
      refine ⟨left + right, scale, ?_⟩
      simp only [PlanExpr.compute?, aligned, Option.bind_some]
      rw [if_neg (by decide), wide?, if_pos (by omega)]
      rfl
  | minus =>
      obtain ⟨left, right, scale, aligned, bound, bound'⟩ := align_narrow small small' narrow narrow'
      refine ⟨left - right, scale, ?_⟩
      simp only [PlanExpr.compute?, aligned, Option.bind_some]
      rw [if_pos trivial, wide?, if_pos (by omega)]
      rfl

end Scaled

namespace PlanExpr

theorem computed_few {a b : Scaled} {op : BinaryOp} {result : ℚ} {digits : Nat} (meant : a.Computes b op result digits)
    (narrow : a.scale ≤ DataType.maxScale) (narrow' : b.scale ≤ DataType.maxScale) {wide : Int} {scale : UInt8}
    (computed : compute? op a b = some (wide, scale)) : digits ≤ DataType.maxScale.toNat := by
  cases meant with
  | plus | minus => exact Nat.max_le.mpr ⟨UInt8.le_iff_toNat_le.mp narrow, UInt8.le_iff_toNat_le.mp narrow'⟩
  | multiply =>
      have scale := Value.compute_scale computed
      rw [if_pos rfl] at scale
      exact scale.1

theorem whole_scale {v : Value} {number : Scaled} (known : v.scaled? = some number) (whole : isDecimal v = false) :
    number.scale = 0 := by
  cases v with
  | int | id =>
      cases known
      rfl
  | decimal => cases whole
  | null | bool | string | timestamp | idSet | stringSet => cases known

theorem not_null_of_number {v : Value} {number : Scaled} (known : v.scaled? = some number) : v.isNull = false := by
  cases v with
  | null => cases known
  | bool | int | id | decimal | string | timestamp | idSet | stringSet => rfl

section

variable {v w : Value} {a b : Scaled} {op : BinaryOp} {result : ℚ} {digits : Nat}

-- What a word denotes as the result of an operation: between whole numbers there are no digits behind the point.
theorem result_rational (number : v.scaled? = some a) (number' : w.scaled? = some b)
    (meant : a.Computes b op result digits) (few : digits ≤ DataType.maxScale.toNat) (n : Int64) :
    (if isDecimal v || isDecimal w then Value.decimal n (UInt8.ofNat digits) else .int n).rational? =
      some ((n.toInt : ℚ) / 10 ^ digits) := by
  split
  · have scale : (UInt8.ofNat digits).toNat = digits :=
      UInt8.toNat_ofNat_of_lt' (Nat.lt_of_le_of_lt few (by decide))
    rw [Value.rational?, Value.scaled?, Option.map_some, Scaled.rational, scale]
  · rename_i whole
    obtain ⟨whole, whole'⟩ := Bool.or_eq_false_iff.mp (Bool.eq_false_iff.mpr whole)
    have none : digits = 0 := by
      cases meant with
      | plus | minus | multiply => rw [whole_scale number whole, whole_scale number' whole']; rfl
    subst none
    rfl

theorem eval_arithmetic {row : Row} {outer : Option Row} {left right : PlanExpr}
    (evaluated : eval row outer left = .ok v) (evaluated' : eval row outer right = .ok w)
    (number : v.scaled? = some a) (number' : w.scaled? = some b) (meant : a.Computes b op result digits) :
    eval row outer (.binary left op right) = arithmetic op v w := by
  have given : (v.isNull || w.isNull) = false := by
    rw [not_null_of_number number, not_null_of_number number', Bool.or_false]
  have arithmetical : op.isLogical = false ∧ op.isComparison = false := by
    cases meant with
    | plus | minus | multiply => exact ⟨rfl, rfl⟩
  rw [eval, evaluated, evaluated', arithmetical.1]
  simp only [Except.bind, Bool.false_eq_true, if_false, apply, given, arithmetical.2]

-- An operation ends with the word that 128 bits hold, or with an overflow where they hold none.
theorem arithmetic_ended (number : v.scaled? = some a) (number' : w.scaled? = some b)
    (meant : a.Computes b op result digits) :
    (∃ n : Int64, compute? op a b = some (n.toInt, UInt8.ofNat digits) ∧
      arithmetic op v w = .ok (if isDecimal v || isDecimal w then .decimal n (UInt8.ofNat digits) else .int n)) ∨
    (∀ (n : Int64) (scale : UInt8), compute? op a b ≠ some (n.toInt, scale)) ∧
      arithmetic op v w = .error (.execution s!"overflow computing {v.text} {op.text} {w.text}") := by
  rw [arithmetic, number, number']
  dsimp only
  cases computed : compute? op a b with
  | none => exact .inr ⟨fun _ _ => (Option.some_ne_none _).symm, rfl⟩
  | some outcome =>
      obtain ⟨wide, scale⟩ := outcome
      obtain ⟨-, rfl, -⟩ := Scaled.computed_exact meant computed
      cases fits : Scaled.word? wide with
      | none =>
          refine .inr ⟨fun n scale same => ?_, by rw [Option.bind_some, fits]; rfl⟩
          cases same
          rw [Scaled.word_of_toInt] at fits
          cases fits
      | some n => exact .inl ⟨n, by rw [Scaled.word_some fits], by rw [Option.bind_some, fits]; rfl⟩

end

theorem arithmetic_exact {row : Row} {outer : Option Row} {left right : PlanExpr} {v w : Value} {a b : Scaled}
    {op : BinaryOp} {result : ℚ} {digits : Nat} (evaluated : eval row outer left = .ok v)
    (evaluated' : eval row outer right = .ok w) (number : v.scaled? = some a) (number' : w.scaled? = some b)
    (narrow : a.scale ≤ DataType.maxScale) (narrow' : b.scale ≤ DataType.maxScale)
    (meant : a.Computes b op result digits) :
    let ended := eval row outer (.binary left op right)
    let overflow : EngineError := .execution s!"overflow computing {v.text} {op.text} {w.text}"
    let answer (n : Int64) : Value :=
      if isDecimal v || isDecimal w then .decimal n (UInt8.ofNat digits) else .int n
    ((∃ n, ended = .ok (answer n) ∧ (answer n).rational? = some result) ∨ ended = .error overflow) ∧
    (ended = .error overflow ↔
      DataType.maxScale.toNat < digits ∨ ¬∃ n : Int64, (n.toInt : ℚ) = result * 10 ^ digits) ∧
    (∀ m n scale, Scaled.align? a b = some (m, n, scale) →
      (m : ℚ) / 10 ^ scale.toNat = a.rational ∧ (n : ℚ) / 10 ^ scale.toNat = b.rational) ∧
    ∀ wide scale, compute? op a b = some (wide, scale) → (wide : ℚ) / 10 ^ digits = result := by
  intro ended overflow answer
  have known : ended = arithmetic op v w := eval_arithmetic evaluated evaluated' number number' meant
  refine ⟨?_, ?_, fun m n scale aligned => ?_, fun wide scale computed => (Scaled.computed_exact meant computed).1⟩
  · obtain ⟨n, computed, done⟩ | ⟨-, failed⟩ := arithmetic_ended number number' meant
    · have few := computed_few meant narrow narrow' computed
      exact .inl ⟨n, known.trans done,
        (result_rational number number' meant few n).trans (congrArg some (Scaled.computed_exact meant computed).1)⟩
    · exact .inr (known.trans failed)
  · obtain ⟨n, computed, done⟩ | ⟨never, failed⟩ := arithmetic_ended number number' meant
    · have few := computed_few meant narrow narrow' computed
      have fits : (n.toInt : ℚ) = result * 10 ^ digits :=
        (div_eq_iff (Scaled.ten_pow_pos digits).ne').mp (Scaled.computed_exact meant computed).1
      refine iff_of_false (fun failed => ?_) (not_or.mpr ⟨Nat.not_lt.mpr few, not_not.mpr ⟨n, fits⟩⟩)
      rw [known, done] at failed
      cases failed
    · refine iff_of_true (known.trans failed) (or_iff_not_imp_left.mpr fun few ⟨n, fits⟩ => ?_)
      obtain ⟨scale, computed⟩ := Scaled.computed_of_fits meant (Value.scaled_small number)
        (Value.scaled_small number') narrow narrow' (Nat.le_of_not_lt few) fits
      exact never n scale computed
  · obtain ⟨first, second, -⟩ := Scaled.align_some aligned
    exact ⟨first.symm, second.symm⟩

-- A price times a count, and two of the greatest identifiers, whose product takes more than 128 bits.
theorem greatest_words_multiplied :
    let row : Row := ⟨[.decimal 150 2, .int 7, .id 18446744073709551615]⟩
    eval row none (.binary (.column 0) .multiply (.column 1)) = .ok (.decimal 1050 2) ∧
      eval row none (.binary (.column 2) .multiply (.column 2)) =
        .error (.execution "overflow computing 18446744073709551615 * 18446744073709551615") := by
  intro row
  have price : eval row none (.column 0) = .ok (.decimal 150 2) := rfl
  have count : eval row none (.column 1) = .ok (.int 7) := rfl
  have greatest : eval row none (.column 2) = .ok (.id 18446744073709551615) := rfl
  obtain ⟨ended, -⟩ := arithmetic_exact price count rfl rfl (by decide) (by decide) .multiply
  obtain ⟨-, failed, -⟩ := arithmetic_exact greatest greatest rfl rfl (by decide) (by decide) .multiply
  constructor
  · obtain ⟨n, done, exact⟩ | failed := ended
    · rw [done]
      have product := (Option.some.inj exact).trans (Scaled.product_rational _ _)
      have word : n.toInt = 150 * 7 := Int.cast_injective ((div_left_inj' (Scaled.ten_pow_pos 2).ne').mp product)
      rw [Int64.toInt_inj.mp (word.trans (b := (1050 : Int64).toInt) rfl)]
      rfl
    · cases failed
  · refine failed.mpr (.inr fun ⟨n, fits⟩ => ?_)
    rw [Scaled.product_rational, div_mul_cancel₀ _ (Scaled.ten_pow_pos _).ne'] at fits
    have product : n.toInt = 18446744073709551615 * 18446744073709551615 := Int.cast_injective fits
    have high := n.toInt_lt
    omega

end PlanExpr

end ShardQuery
