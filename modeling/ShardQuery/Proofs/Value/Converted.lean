import ShardQuery.Value.Scaled
/-!
What conversion does to comparisons. Main statements: the ways in which a value is converted, and a value that is
converted to the type of another compares with that one as before.
-/

set_option autoImplicit false

namespace ShardQuery

namespace Scaled

theorem compare_scaled (a b power : Int) (positive : 0 < power) : compare (a * power) (b * power) = compare a b := by
  rcases Int.lt_trichotomy a b with less | rfl | greater
  · rw [Int.compare_eq_lt.mpr less, Int.compare_eq_lt.mpr (Int.mul_lt_mul_of_pos_right less positive)]
  · rw [Int.compare_eq_eq.mpr rfl, Int.compare_eq_eq.mpr rfl]
  · rw [Int.compare_eq_gt.mpr greater, Int.compare_eq_gt.mpr (Int.mul_lt_mul_of_pos_right greater positive)]

theorem widen_some {n widened : Int} {digits : Nat} (done : widen? n digits = some widened) :
    widened = n * 10 ^ digits := by
  obtain ⟨power, known, done⟩ := Option.bind_eq_some_iff.mp done
  rw [powerOfTen?] at known
  split at known
  · cases known
    rw [wide?] at done
    split at done
    · exact (Option.some.inj done).symm
    · cases done
  · cases known

theorem narrow_some {n narrowed : Int} {digits : Nat} (done : narrow? n digits = some narrowed) :
    n = narrowed * 10 ^ digits := by
  obtain ⟨power, known, done⟩ := Option.bind_eq_some_iff.mp done
  rw [powerOfTen?] at known
  split at known
  · cases known
    split at done
    · rename_i whole
      rw [← Option.some.inj done]
      exact (Int.tdiv_mul_cancel_of_tmod_eq_zero whole).symm
    · cases done
  · cases known

-- A number that needs no more digits than 64 bits hold.
theorem widen_nothing (word : Int64) : widen? word.toInt 0 = some word.toInt := by
  have low := word.le_toInt
  have high := word.toInt_lt
  change wide? (word.toInt * 10 ^ 0) = _
  rw [Int.pow_zero, Int.mul_one, wide?, if_pos (by omega)]

theorem order_same_scale (a b : Int64) (scale : UInt8) :
    order? ⟨a.toInt, scale⟩ ⟨b.toInt, scale⟩ = some (compare a.toInt b.toInt) := by
  rw [order?, align?]
  simp only [ite_self, Nat.sub_self, widen_nothing, Option.bind_some, Option.map_some]

theorem order_swap (a b : Scaled) : b.order? a = (a.order? b).map Ordering.swap := by
  have same : (if b.scale ≤ a.scale then a.scale else b.scale) = if a.scale ≤ b.scale then b.scale else a.scale := by
    by_cases below : b.scale ≤ a.scale
    · by_cases above : a.scale ≤ b.scale
      · rw [if_pos below, if_pos above, UInt8.le_antisymm below above]
      · rw [if_pos below, if_neg above]
    · rw [if_neg below, if_pos ((UInt8.le_total _ _).resolve_left below)]
  rw [order?, order?, align?, align?, same]
  generalize (if a.scale ≤ b.scale then b.scale else a.scale) = scale
  cases widen? a.unscaled (scale.toNat - a.scale.toNat) with
  | none => cases widen? b.unscaled (scale.toNat - b.scale.toNat) <;> rfl
  | some left =>
      cases widen? b.unscaled (scale.toNat - b.scale.toNat) with
      | none => rfl
      | some right => exact congrArg some Std.OrientedCmp.eq_swap

-- A number brought to the scale of another compares with it as before.
theorem order_rescaled (a word : Int64) (scale : UInt8) (number : Scaled) (o : Ordering)
    (rescaled : number.rescale? scale = some word.toInt) (ordered : order? ⟨a.toInt, scale⟩ number = some o) :
    order? ⟨a.toInt, scale⟩ ⟨word.toInt, scale⟩ = some o := by
  rw [order_same_scale]
  rw [order?, align?] at ordered
  obtain ⟨⟨left, right, common⟩, aligned, rfl⟩ := Option.map_eq_some_iff.mp ordered
  obtain ⟨_, widened, aligned⟩ := Option.bind_eq_some_iff.mp aligned
  obtain ⟨_, widened', aligned⟩ := Option.map_eq_some_iff.mp aligned
  cases aligned
  rw [rescale?] at rescaled
  by_cases finer : number.scale ≤ scale
  · rw [if_pos finer] at rescaled
    have common : (if scale ≤ number.scale then number.scale else scale) = scale := by
      split
      · rename_i coarser
        exact UInt8.le_antisymm finer coarser
      · rfl
    dsimp only at widened widened'
    rw [common, rescaled] at widened'
    rw [common, Nat.sub_self, widen_nothing] at widened
    cases widened
    cases widened'
    rfl
  · rw [if_neg finer] at rescaled
    have common : (if scale ≤ number.scale then number.scale else scale) = number.scale :=
      if_pos ((UInt8.le_total _ _).resolve_left finer)
    dsimp only at widened widened'
    rw [common] at widened widened'
    have whole := narrow_some rescaled
    rw [Nat.sub_self] at widened'
    have left := widen_some widened
    have right := widen_some widened'
    rw [Int.pow_zero, Int.mul_one, whole] at right
    rw [left, right, compare_scaled _ _ _ (Int.pow_pos (by decide))]

theorem word_some {n : Int} {word : Int64} (done : word? n = some word) : word.toInt = n := by
  rw [word?] at done
  split at done
  · rename_i small
    rw [← Option.some.inj done]
    exact Int64.toInt_ofInt_of_le small.1 small.2
  · cases done

theorem word_of_toInt (word : Int64) : word? word.toInt = some word := by
  rw [word?, if_pos ⟨word.le_toInt, word.toInt_lt⟩, Int64.ofInt_toInt]

end Scaled

namespace Value

-- How a value is converted to a type.
inductive Converts : Value → DataType → Value → Prop
  | null (target : DataType) : Converts .null target .null
  | same (v : Value) (type : DataType) (typed : v.dataType? = some type) : Converts v type v
  | idOfInt (n : Int64) (positive : 0 ≤ n.toInt) : Converts (.int n) .id (.id n.toUInt64)
  | timestampOfInt (n : Int64) : Converts (.int n) .timestamp (.timestamp n)
  | intOfId (n : UInt64) (word : Int64) (fits : Scaled.word? n.toNat = some word) : Converts (.id n) .int (.int word)
  | decimalOf (v : Value) (scale : UInt8) (number : Scaled) (word : Int64) (before : v.scaled? = some number)
      (rescaled : number.rescale? scale = some word.toInt) : Converts v (.decimal scale) (.decimal word scale)

theorem convert_cases {v converted : Value} {target : DataType} (done : v.convert? target = some converted) :
    v.Converts target converted := by
  have rescaled (scale : UInt8) (done : (v.scaled?.bind fun number => (number.rescale? scale).bind fun unscaled =>
      (Scaled.word? unscaled).map fun word => Value.decimal word scale) = some converted) :
      v.Converts (.decimal scale) converted := by
    obtain ⟨number, before, done⟩ := Option.bind_eq_some_iff.mp done
    obtain ⟨unscaled, rescaled, done⟩ := Option.bind_eq_some_iff.mp done
    obtain ⟨word, fits, rfl⟩ := Option.map_eq_some_iff.mp done
    exact .decimalOf v scale number word before (Scaled.word_some fits ▸ rescaled)
  cases v with
  | null =>
      cases done
      exact .null target
  | int n =>
      cases target with
      | int =>
          cases done
          exact .same _ _ rfl
      | id =>
          change (if 0 ≤ n.toInt then some (id n.toUInt64) else none) = _ at done
          split at done
          · rename_i positive
            cases done
            exact .idOfInt n positive
          · cases done
      | timestamp =>
          cases done
          exact .timestampOfInt n
      | decimal scale => exact rescaled scale done
      | bool | string | idSet | stringSet => cases done
  | id n =>
      cases target with
      | id =>
          cases done
          exact .same _ _ rfl
      | int =>
          change (Scaled.word? n.toNat).map int = _ at done
          obtain ⟨word, fits, rfl⟩ := Option.map_eq_some_iff.mp done
          exact .intOfId n word fits
      | decimal scale => exact rescaled scale done
      | bool | string | timestamp | idSet | stringSet => cases done
  | decimal =>
      cases target with
      | decimal scale => exact rescaled scale done
      | bool | int | id | string | timestamp | idSet | stringSet => cases done
  | bool | string | timestamp | idSet | stringSet =>
      cases target <;> cases done
      exact .same _ _ rfl

theorem null_of_type {v : Value} (untyped : v.dataType? = none) : v = .null := by
  cases v with
  | null => rfl
  | bool | int | id | decimal | string | timestamp | idSet | stringSet => cases untyped

theorem not_null_of_type {v : Value} {type : DataType} (typed : v.dataType? = some type) : v.isNull = false := by
  cases v with
  | null => cases typed
  | bool | int | id | decimal | string | timestamp | idSet | stringSet => rfl

-- A converted value is of the type that was asked for, and null stays null.
theorem convert_typed (v converted : Value) (target : DataType) (done : v.convert? target = some converted) :
    (v = .null ∧ converted = .null) ∨ (v ≠ .null ∧ converted.dataType? = some target) := by
  cases convert_cases done with
  | null => exact .inl ⟨rfl, rfl⟩
  | same _ _ typed =>
      refine .inr ⟨?_, typed⟩
      rintro rfl
      cases typed
  | idOfInt | timestampOfInt | intOfId => exact .inr ⟨nofun, rfl⟩
  | decimalOf _ _ _ _ before =>
      refine .inr ⟨?_, rfl⟩
      rintro rfl
      cases before

theorem order_number (x v : Value) (n : Scaled) (number : x.scaled? = some n) (given : v ≠ .null) :
    x.order? v = v.scaled?.bind n.order? ∧ v.order? x = v.scaled?.bind (·.order? n) := by
  have beside (x : Value) (number : x.scaled? = some n) (plain : x.order? v = x.scaled?.bind fun left =>
      v.scaled?.bind fun right => left.order? right) (plain' : v.order? x = v.scaled?.bind fun left =>
      x.scaled?.bind fun right => left.order? right) :
      x.order? v = v.scaled?.bind n.order? ∧ v.order? x = v.scaled?.bind (·.order? n) := by
    rw [plain, plain', number]
    exact ⟨rfl, rfl⟩
  cases x with
  | int | id | decimal =>
      cases v with
      | null => exact absurd rfl given
      | bool | int | id | decimal | string | timestamp | idSet | stringSet => exact beside _ number rfl rfl
  | null | bool | string | timestamp | idSet | stringSet => cases number

theorem given_of_number {v : Value} {number : Scaled} (known : v.scaled? = some number) : v ≠ .null := by
  rintro rfl
  cases known

-- Two values that compare with another one alike, on either side.
structure ComparesAs (x v converted : Value) : Prop where
  left : ∀ o, x.order? v = some o → x.order? converted = some o
  right : ∀ o, v.order? x = some o → converted.order? x = some o

theorem numbers_compare (x v converted : Value) (n number found : Scaled) (own : x.scaled? = some n)
    (before : v.scaled? = some number) (after : converted.scaled? = some found)
    (keeps : ∀ o, n.order? number = some o → n.order? found = some o) : x.ComparesAs v converted := by
  obtain ⟨left, right⟩ := order_number x v n own (given_of_number before)
  obtain ⟨left', right'⟩ := order_number x converted n own (given_of_number after)
  rw [before, Option.bind_some] at left right
  rw [after, Option.bind_some] at left' right'
  refine ⟨fun o ordered => ?_, fun o ordered => ?_⟩
  · rw [left] at ordered
    rw [left', keeps o ordered]
  · rw [right, Scaled.order_swap, Option.map_eq_some_iff] at ordered
    obtain ⟨order, ordered, rfl⟩ := ordered
    rw [right', Scaled.order_swap, keeps order ordered]
    rfl

theorem number_of_type {x : Value} {target : DataType} (typed : x.dataType? = some target)
    (numeric : target.isNumeric = true) : ∃ n, x.scaled? = some n := by
  cases x with
  | int | id | decimal => exact ⟨_, rfl⟩
  | null => cases typed
  | bool | string | timestamp | idSet | stringSet =>
      cases typed
      cases numeric

-- A value that is converted to the type of another compares with that one as before.
theorem convert_compares (x v converted : Value) (target : DataType) (typed : x.dataType? = some target)
    (done : v.convert? target = some converted) : x.ComparesAs v converted := by
  have same (v : Value) : x.ComparesAs v v := ⟨fun _ ordered => ordered, fun _ ordered => ordered⟩
  have alike (numeric : target.isNumeric = true) (number : Scaled) (before : v.scaled? = some number)
      (after : converted.scaled? = some number) : x.ComparesAs v converted := by
    obtain ⟨n, own⟩ := number_of_type typed numeric
    exact numbers_compare x v converted n number number own before after fun _ ordered => ordered
  cases convert_cases done with
  | null | same => exact same _
  | idOfInt n positive =>
      refine alike rfl ⟨n.toInt, 0⟩ rfl ?_
      rw [scaled?, Int64.toNat_toUInt64_of_le (Int64.le_iff_toInt_le.mpr positive),
        Int64.cast_toNatClampNeg n (Int64.le_iff_toInt_le.mpr positive)]
  | timestampOfInt =>
      -- An integer has no order among timestamps.
      cases x with
      | timestamp t => exact ⟨nofun, nofun⟩
      | null | bool | int | id | decimal | string | idSet | stringSet => cases typed
  | intOfId n word fits =>
      refine alike rfl ⟨n.toNat, 0⟩ rfl ?_
      rw [scaled?, Scaled.word_some fits]
  | decimalOf _ scale number word before rescaled =>
      cases x with
      | decimal own other =>
          cases typed
          exact numbers_compare _ v _ _ number ⟨word.toInt, scale⟩ rfl before rfl
            fun o ordered => Scaled.order_rescaled own word scale number o rescaled ordered
      | null | bool | int | id | string | timestamp | idSet | stringSet => cases typed

end Value

end ShardQuery
