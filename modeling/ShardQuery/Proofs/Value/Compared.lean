import Mathlib.Order.Compare
import ShardQuery.Proofs.Value.Alike
/-!
Comparison of values as numbers. Main statements: whenever two numbers have an order it is that of the rationals that
they denote, at scales that a column can have they always do, and values of one kind compare equal exactly if they are
equal.
-/

set_option autoImplicit false

namespace ShardQuery

namespace Scaled

theorem align_some {a b : Scaled} {left right : Int} {scale : UInt8} (aligned : align? a b = some (left, right, scale)) :
    a.rational = left / 10 ^ scale.toNat ∧ b.rational = right / 10 ^ scale.toNat ∧
      scale.toNat = max a.scale.toNat b.scale.toNat := by
  obtain ⟨widened, done, aligned⟩ := Option.bind_eq_some_iff.mp aligned
  obtain ⟨widened', done', aligned⟩ := Option.map_eq_some_iff.mp aligned
  obtain ⟨rfl, rfl, known⟩ : widened = left ∧ widened' = right ∧ _ = scale := by simpa using aligned
  have larger : scale.toNat = max a.scale.toNat b.scale.toNat := by
    rw [← known]
    split
    · rename_i below
      exact (Nat.max_eq_right (UInt8.le_iff_toNat_le.mp below)).symm
    · rename_i above
      exact (Nat.max_eq_left (Nat.le_of_not_le fun below => above (UInt8.le_iff_toNat_le.mpr below))).symm
  rw [known] at done done'
  rw [a.rational_at (larger ▸ Nat.le_max_left _ _), b.rational_at (larger ▸ Nat.le_max_right _ _), widen_some done,
    widen_some done']
  exact ⟨rfl, rfl, larger⟩

theorem compare_rational (m n : Int) (exponent : Nat) :
    compare ((m : ℚ) / 10 ^ exponent) (n / 10 ^ exponent) = compare m n := by
  have positive := ten_pow_pos exponent
  rcases Int.lt_trichotomy m n with less | rfl | greater
  · rw [Int.compare_eq_lt.mpr less, compare_lt_iff_lt]
    exact div_lt_div_of_pos_right (Int.cast_lt.mpr less) positive
  · rw [Int.compare_eq_eq.mpr rfl, compare_eq_iff_eq]
  · rw [Int.compare_eq_gt.mpr greater, compare_gt_iff_gt]
    exact div_lt_div_of_pos_right (Int.cast_lt.mpr greater) positive

theorem order_rational {a b : Scaled} {o : Ordering} (ordered : a.order? b = some o) :
    o = compare a.rational b.rational := by
  obtain ⟨⟨left, right, scale⟩, aligned, rfl⟩ := Option.map_eq_some_iff.mp ordered
  obtain ⟨same, same', -⟩ := align_some aligned
  rw [same, same', compare_rational]

theorem widen_small {n : Int} {digits : Nat} (small : n.natAbs < 2 ^ 64) (few : digits ≤ DataType.maxScale.toNat) :
    widen? n digits = some (n * 10 ^ digits) ∧ (n * 10 ^ digits).natAbs < 2 ^ 126 := by
  have digits' : digits ≤ 18 := few
  have product : (n * 10 ^ digits).natAbs ≤ 2 ^ 64 * 10 ^ 18 := by
    rw [Int.natAbs_mul, Int.natAbs_pow]
    exact Nat.mul_le_mul (Nat.le_of_lt small) (Nat.pow_le_pow_right (by decide) digits')
  refine ⟨?_, by omega⟩
  rw [widen?, powerOfTen?, if_pos (by omega)]
  exact if_pos (by omega)

-- Numbers of 64 bits at the scales of columns are aligned within 128 bits, with room for a sum.
theorem align_narrow {a b : Scaled} (small : a.unscaled.natAbs < 2 ^ 64) (small' : b.unscaled.natAbs < 2 ^ 64)
    (narrow : a.scale ≤ DataType.maxScale) (narrow' : b.scale ≤ DataType.maxScale) :
    ∃ left right scale, align? a b = some (left, right, scale) ∧ left.natAbs < 2 ^ 126 ∧ right.natAbs < 2 ^ 126 := by
  have common : (if a.scale ≤ b.scale then b.scale else a.scale).toNat ≤ DataType.maxScale.toNat := by
    split
    · exact UInt8.le_iff_toNat_le.mp narrow'
    · exact UInt8.le_iff_toNat_le.mp narrow
  rw [align?]
  generalize (if a.scale ≤ b.scale then b.scale else a.scale) = scale at common
  obtain ⟨widened, bound⟩ := widen_small small (Nat.le_trans (Nat.sub_le _ a.scale.toNat) common)
  obtain ⟨widened', bound'⟩ := widen_small small' (Nat.le_trans (Nat.sub_le _ b.scale.toNat) common)
  rw [widened, widened']
  exact ⟨_, _, _, rfl, bound, bound'⟩

theorem order_total (a b : Scaled) (small : a.unscaled.natAbs < 2 ^ 64) (small' : b.unscaled.natAbs < 2 ^ 64)
    (narrow : a.scale ≤ DataType.maxScale) (narrow' : b.scale ≤ DataType.maxScale) : ∃ o, a.order? b = some o := by
  obtain ⟨left, right, scale, aligned, -⟩ := align_narrow small small' narrow narrow'
  rw [order?, aligned]
  exact ⟨_, rfl⟩

end Scaled

namespace Value

theorem scaled_small {v : Value} {number : Scaled} (known : v.scaled? = some number) :
    number.unscaled.natAbs < 2 ^ 64 := by
  cases v with
  | int n =>
      cases known
      have low := n.le_toInt
      have high := n.toInt_lt
      dsimp only
      omega
  | id n =>
      cases known
      have high := n.toNat_lt
      dsimp only
      omega
  | decimal n scale =>
      cases known
      have low := n.le_toInt
      have high := n.toInt_lt
      dsimp only
      omega
  | null | bool | string | timestamp | idSet | stringSet => cases known

theorem scale_of_type {v : Value} {type : DataType} {number : Scaled} (typed : v.dataType? = some type)
    (known : v.scaled? = some number) : number.scale = type.scale := by
  cases v with
  | int | id | decimal =>
      cases known
      cases typed
      rfl
  | null | bool | string | timestamp | idSet | stringSet => cases known

-- Nulls, and numbers at a scale that a column can have.
def Ranked (v : Value) : Prop := v = .null ∨ ∃ number, v.scaled? = some number ∧ number.scale ≤ DataType.maxScale

def AtMost (v w : Value) : Prop := v.order? w = some .lt ∨ v.order? w = some .eq

inductive SameVariant : Value → Value → Prop
  | null : SameVariant .null .null
  | bool (a b : Bool) : SameVariant (.bool a) (.bool b)
  | int (m n : Int64) : SameVariant (.int m) (.int n)
  | id (m n : UInt64) : SameVariant (.id m) (.id n)
  | decimal (m n : Int64) (scale scale' : UInt8) : SameVariant (.decimal m scale) (.decimal n scale')
  | string (s t : String) : SameVariant (.string s) (.string t)
  | timestamp (s t : Int64) : SameVariant (.timestamp s) (.timestamp t)
  | idSet (members others : List UInt64) : SameVariant (.idSet members) (.idSet others)
  | stringSet (members others : List String) : SameVariant (.stringSet members) (.stringSet others)

theorem order_numbers {v w : Value} {a b : ℚ} {o : Ordering} (number : v.rational? = some a)
    (number' : w.rational? = some b) (ordered : v.order? w = some o) : o = compare a b := by
  obtain ⟨n, known, rfl⟩ := Option.map_eq_some_iff.mp number
  obtain ⟨m, known', rfl⟩ := Option.map_eq_some_iff.mp number'
  rw [(order_number v w n known (given_of_number known')).1, known'] at ordered
  exact Scaled.order_rational ordered

-- Null comes before every number, and numbers come as the rationals do.
theorem order_ranked {v w : Value} (ranked : v.Ranked) (ranked' : w.Ranked) :
    v.order? w = some (compare v.rational? w.rational?) := by
  rcases ranked with rfl | ⟨n, known, narrow⟩
  · rcases ranked' with rfl | ⟨m, known', -⟩
    · rfl
    · rw [rational?, rational?, known']
      cases w with
      | int | id | decimal => rfl
      | null | bool | string | timestamp | idSet | stringSet => cases known'
  · rcases ranked' with rfl | ⟨m, known', narrow'⟩
    · rw [rational?, rational?, known]
      cases v with
      | int | id | decimal => rfl
      | null | bool | string | timestamp | idSet | stringSet => cases known
    · obtain ⟨o, ordered⟩ := Scaled.order_total n m (scaled_small known) (scaled_small known') narrow narrow'
      rw [(order_number v w n known (given_of_number known')).1, known', Option.bind_some, ordered, rational?, rational?,
        known, known', Scaled.order_rational ordered]
      rfl

theorem order_swapped_number {v : Value} {number : Scaled} (known : v.scaled? = some number) (w : Value) :
    w.order? v = (v.order? w).map Ordering.swap := by
  by_cases none : w = .null
  · subst none
    cases v with
    | int | id | decimal => rfl
    | null | bool | string | timestamp | idSet | stringSet => cases known
  · obtain ⟨left, right⟩ := order_number v w number known none
    rw [left, right]
    cases w.scaled? with
    | none => rfl
    | some other => exact Scaled.order_swap number other

theorem order_swapped (v w : Value) : w.order? v = (v.order? w).map Ordering.swap := by
  cases v with
  | null => cases w <;> rfl
  | bool =>
      cases w with
      | bool => exact congrArg some Std.OrientedCmp.eq_swap
      | null | int | id | decimal | string | timestamp | idSet | stringSet => rfl
  | string =>
      cases w with
      | string => exact congrArg some Std.OrientedCmp.eq_swap
      | null | bool | int | id | decimal | timestamp | idSet | stringSet => rfl
  | timestamp =>
      cases w with
      | timestamp => exact congrArg some Std.OrientedCmp.eq_swap
      | null | bool | int | id | decimal | string | idSet | stringSet => rfl
  | idSet | stringSet => cases w <;> rfl
  | int | id | decimal => exact order_swapped_number rfl w

theorem at_most_iff {v w : Value} (ranked : v.Ranked) (ranked' : w.Ranked) :
    v.AtMost w ↔ (compare v.rational? w.rational?).isLE = true := by
  rw [AtMost, order_ranked ranked ranked']
  cases compare v.rational? w.rational? <;> decide

theorem at_most_trans {u v w : Value} (ranked : u.Ranked) (ranked' : v.Ranked) (ranked'' : w.Ranked)
    (first : u.AtMost v) (second : v.AtMost w) : u.AtMost w := by
  rw [at_most_iff ranked ranked'] at first
  rw [at_most_iff ranked' ranked''] at second
  rw [at_most_iff ranked ranked'']
  exact Std.TransCmp.isLE_trans first second

theorem at_most_total {v w : Value} (ranked : v.Ranked) (ranked' : w.Ranked) : v.AtMost w ∨ w.AtMost v := by
  have swapped : compare w.rational? v.rational? = (compare v.rational? w.rational?).swap := Std.OrientedCmp.eq_swap
  rw [at_most_iff ranked ranked', at_most_iff ranked' ranked, swapped]
  cases compare v.rational? w.rational? <;> decide

theorem whole_rational_iff (m n : Int) : Scaled.rational ⟨m, 0⟩ = Scaled.rational ⟨n, 0⟩ ↔ m = n := by
  rw [Scaled.rational_eq_iff]
  exact ⟨fun same => by simpa using same, fun same => by rw [same]⟩

-- Numbers of one kind are equal exactly if they denote the same.
theorem equal_numbers {v w : Value} {number number' : Scaled} {o : Ordering} (known : v.scaled? = some number)
    (known' : w.scaled? = some number') (ordered : v.order? w = some o)
    (same : v.canonical = w.canonical ↔ number.rational = number'.rational) : o = .eq ↔ (v == w) = true := by
  have denoted : v.rational? = some number.rational := congrArg (Option.map _) known
  have denoted' : w.rational? = some number'.rational := congrArg (Option.map _) known'
  rw [order_numbers denoted denoted' ordered, compare_eq_iff_eq, beq_iff, same]

theorem equal_iff {v w : Value} {o : Ordering} (variant : SameVariant v w) (given : v.isNull = false)
    (ordered : v.order? w = some o) : o = .eq ↔ (v == w) = true := by
  cases variant with
  | null => cases given
  | bool a b =>
      cases ordered
      rw [Std.LawfulEqCmp.compare_eq_iff_eq, beq_iff]
      exact ⟨congrArg (canonical ∘ Value.bool), bool_inj⟩
  | string s t =>
      cases ordered
      rw [Std.LawfulEqCmp.compare_eq_iff_eq, beq_iff]
      exact ⟨congrArg (canonical ∘ Value.string), fun same => string_inj (List.cons.inj same).2⟩
  | timestamp s t =>
      cases ordered
      rw [Std.LawfulEqCmp.compare_eq_iff_eq, beq_iff]
      exact ⟨congrArg (canonical ∘ Value.timestamp), fun same => Bytes.signed64_inj (List.cons.inj same).2⟩
  | int m n =>
      refine equal_numbers rfl rfl ordered ?_
      rw [whole_rational_iff, Int64.toInt_inj]
      exact ⟨fun same => Bytes.signed64_inj (List.cons.inj same).2, congrArg (canonical ∘ Value.int)⟩
  | id m n =>
      refine equal_numbers rfl rfl ordered ?_
      rw [whole_rational_iff, Int.ofNat_inj, UInt64.toNat_inj]
      exact ⟨fun same => Bytes.word64_inj (List.cons.inj same).2, congrArg (canonical ∘ Value.id)⟩
  | decimal m n scale scale' =>
      exact equal_numbers rfl rfl ordered ((decimal_canonical_iff m n scale scale').trans (Option.some.injEq _ _).to_iff)
  | idSet | stringSet => cases ordered

theorem order_exact :
    (∀ (v w : Value) (a b : ℚ) (o : Ordering), v.rational? = some a → w.rational? = some b → v.order? w = some o →
      o = compare a b) ∧
    (∀ v w : Value, v.Ranked → w.Ranked → v.order? w = some (compare v.rational? w.rational?)) ∧
    (∀ v w : Value, v.Ranked → w.Ranked → v.AtMost w ∨ w.AtMost v) ∧
    (∀ u v w : Value, u.Ranked → v.Ranked → w.Ranked → u.AtMost v → v.AtMost w → u.AtMost w) ∧
    (∀ v w : Value, w.order? v = (v.order? w).map Ordering.swap) ∧
    (∀ v : Value, v.isNull = false → Value.null.order? v = some .lt) ∧
    (∀ (v w : Value) (o : Ordering), SameVariant v w → v.isNull = false → v.order? w = some o →
      (o = .eq ↔ (v == w) = true)) := by
  refine ⟨fun _ _ _ _ _ => order_numbers, fun _ _ => order_ranked, fun _ _ => at_most_total, fun _ _ _ => at_most_trans,
    order_swapped, fun v given => ?_, fun _ _ _ => equal_iff⟩
  cases v with
  | null => cases given
  | bool | int | id | decimal | string | timestamp | idSet | stringSet => rfl

-- The least and the greatest words, at the scales that need the most digits and beyond them.
theorem extreme_numbers_ordered :
    let least := decimal Int64.minValue 0
    let small := decimal Int64.minValue 18
    let greatest := id 18446744073709551615
    let tiny := decimal 150 255
    let same := decimal 15 254
    least.AtMost small ∧ small.AtMost greatest ∧ least.AtMost greatest ∧ (greatest.AtMost least ∨ least.AtMost greatest) ∧
      least.order? greatest = some (compare least.rational? greatest.rational?) ∧
      greatest.order? least = (least.order? greatest).map Ordering.swap ∧ Value.null.order? tiny = some .lt ∧
      .eq = compare (Scaled.rational ⟨150, 255⟩) (Scaled.rational ⟨15, 254⟩) ∧ (tiny == same) = true := by
  intro least small greatest tiny same
  obtain ⟨exact, ranked, total, trans, swapped, null, equal⟩ := order_exact
  have first : least.Ranked := .inr ⟨_, rfl, by decide⟩
  have second : small.Ranked := .inr ⟨_, rfl, by decide⟩
  have third : greatest.Ranked := .inr ⟨_, rfl, by decide⟩
  have below : least.AtMost small := .inl rfl
  have above : small.AtMost greatest := .inl rfl
  exact ⟨below, above, trans _ _ _ first second third below above, total _ _ third first, ranked _ _ first third,
    swapped _ _, null tiny rfl, exact tiny same _ _ _ rfl rfl rfl, (equal tiny same .eq (.decimal ..) rfl rfl).mp rfl⟩

end Value

end ShardQuery
