import ShardQuery.Proofs.Value.Compared
import ShardQuery.Value.Coercion
/-!
Conversion without loss. Main statement: a converted value is of the type that was asked for and denotes what it did
before, and between types that convert nothing is refused but a value that the other type has none for.
-/

set_option autoImplicit false

namespace ShardQuery

namespace Scaled

-- Rescaling keeps the number, at whatever scales.
theorem rescale_exact {number : Scaled} {scale : UInt8} {n : Int} (rescaled : number.rescale? scale = some n) :
    number.rational = n / 10 ^ scale.toNat := by
  rw [rescale?] at rescaled
  split at rescaled
  · rename_i finer
    rw [number.rational_at (UInt8.le_iff_toNat_le.mp finer), widen_some rescaled]
  · rename_i coarser
    have fewer : scale.toNat ≤ number.scale.toNat :=
      Nat.le_of_not_le fun finer => coarser (UInt8.le_iff_toNat_le.mpr finer)
    have same : number.rational = Scaled.rational ⟨n, scale⟩ := by
      rw [rational_at ⟨n, scale⟩ fewer, rational, narrow_some rescaled]
    exact same

theorem narrow_whole (n : Int) {digits : Nat} (few : digits ≤ DataType.maxScale.toNat) :
    narrow? (n * 10 ^ digits) digits = some n := by
  have digits' : digits ≤ 18 := few
  have positive : (10 : Int) ^ digits ≠ 0 := pow_ne_zero _ (by decide)
  rw [narrow?, powerOfTen?, if_pos (by omega)]
  change (if _ then _ else _) = _
  rw [if_pos (Int.mul_tmod_left n _), Int.mul_tdiv_cancel n positive]

-- At scales that a column can have, a number is rescaled whenever it has no more digits than the scale.
theorem rescale_of_exact {number : Scaled} {scale : UInt8} {n : Int} (small : number.unscaled.natAbs < 2 ^ 64)
    (narrow : number.scale ≤ DataType.maxScale) (narrow' : scale ≤ DataType.maxScale)
    (exact : number.rational = n / 10 ^ scale.toNat) : number.rescale? scale = some n := by
  have same : number.rational = Scaled.rational ⟨n, scale⟩ := exact
  have positive (exponent : Nat) : (10 : Int) ^ exponent ≠ 0 := pow_ne_zero _ (by decide)
  rw [rational_eq_iff] at same
  dsimp only at same
  rw [rescale?]
  split
  · rename_i finer
    have fewer := UInt8.le_iff_toNat_le.mp finer
    rw [(widen_small small (Nat.le_trans (Nat.sub_le _ _) (UInt8.le_iff_toNat_le.mp narrow'))).1]
    rw [← Nat.sub_add_cancel fewer, pow_add, ← mul_assoc] at same
    exact congrArg some (Int.eq_of_mul_eq_mul_right (positive _) same)
  · rename_i coarser
    have fewer : scale.toNat ≤ number.scale.toNat :=
      Nat.le_of_not_le fun finer => coarser (UInt8.le_iff_toNat_le.mpr finer)
    rw [← Nat.sub_add_cancel fewer, pow_add, ← mul_assoc] at same
    rw [Int.eq_of_mul_eq_mul_right (positive _) same]
    exact narrow_whole n (Nat.le_trans (Nat.sub_le _ _) (UInt8.le_iff_toNat_le.mp narrow))

theorem word_none {n : Int} (none : word? n = none) : n < -(2 ^ 63) ∨ 2 ^ 63 ≤ n := by
  rw [word?] at none
  split at none
  · cases none
  · omega

end Scaled

namespace DataType

-- Types between which values are converted.
inductive Convertible : DataType → DataType → Prop
  | same (type : DataType) : Convertible type type
  | intAsId : Convertible .int .id
  | intAsTimestamp : Convertible .int .timestamp
  | intAsDecimal (scale : UInt8) : Convertible .int (.decimal scale)
  | idAsInt : Convertible .id .int
  | idAsDecimal (scale : UInt8) : Convertible .id (.decimal scale)
  | decimalAsDecimal (scale scale' : UInt8) : Convertible (.decimal scale) (.decimal scale')

end DataType

namespace Value

-- Values that denote the same: one rational number, or an integer and the time of so many microseconds.
inductive DenotesAs : Value → Value → Prop
  | same (v : Value) : DenotesAs v v
  | number (v w : Value) (q : ℚ) (known : v.rational? = some q) (known' : w.rational? = some q) : DenotesAs v w
  | moment (n : Int64) : DenotesAs (.int n) (.timestamp n)

-- Values beyond a type: of the wrong sign, of more digits behind the point, or too large for 64 bits.
inductive Exceeds : Value → DataType → Prop
  | negative (n : Int64) (below : n.toInt < 0) : Exceeds (.int n) .id
  | large (n : UInt64) (above : 2 ^ 63 ≤ n.toNat) : Exceeds (.id n) .int
  | digits (v : Value) (scale : UInt8) (q : ℚ) (known : v.rational? = some q)
      (more : ∀ n : Int, q ≠ n / 10 ^ scale.toNat) : Exceeds v (.decimal scale)
  | long (v : Value) (scale : UInt8) (n : Int) (known : v.rational? = some (n / 10 ^ scale.toNat : ℚ))
      (beyond : n < -(2 ^ 63) ∨ 2 ^ 63 ≤ n) : Exceeds v (.decimal scale)

theorem convert_own {v : Value} {type : DataType} (typed : v.dataType? = some type) : v.convert? type = some v := by
  cases v with
  | null => cases typed
  | bool | int | id | string | timestamp | idSet | stringSet =>
      cases typed
      rfl
  | decimal n scale =>
      cases typed
      change ((Scaled.rescale? ⟨n.toInt, scale⟩ scale).bind fun unscaled => _) = _
      rw [Scaled.rescale?, if_pos (UInt8.le_refl scale)]
      dsimp only
      rw [Nat.sub_self, Scaled.widen_nothing, Option.bind_some, Scaled.word_of_toInt]
      rfl

-- What a value is converted to is converted to itself.
theorem convert_again {v w : Value} {type : DataType} (done : v.convert? type = some w) : w.convert? type = some w := by
  rcases convert_typed v w type done with ⟨rfl, rfl⟩ | ⟨-, typed⟩
  · exact done
  · exact convert_own typed

theorem coerce_ok_iff {v w : Value} {type : DataType} : v.coerce type = .ok w ↔ v.convert? type = some w := by
  rw [coerce]
  cases v.convert? type with
  | none => exact ⟨nofun, nofun⟩
  | some converted =>
      exact ⟨fun done => congrArg some (Except.ok.inj done), fun done => congrArg Except.ok (Option.some.inj done)⟩

theorem coerce_error_iff {v : Value} {type : DataType} :
    v.coerce type = .error (.typeMismatch s!"cannot use value {v.text} as type {type.text}") ↔
      v.convert? type = none := by
  rw [coerce]
  cases v.convert? type with
  | none => exact ⟨fun _ => rfl, fun _ => rfl⟩
  | some converted => exact ⟨nofun, nofun⟩

theorem id_rational (n : UInt64) (word : Int64) (fits : Scaled.word? n.toNat = some word) :
    (id n).rational? = (int word).rational? := by
  rw [rational?, rational?, scaled?, scaled?, Scaled.word_some fits]

theorem int_rational (n : Int64) (positive : 0 ≤ n.toInt) : (int n).rational? = (id n.toUInt64).rational? := by
  have natural : 0 ≤ n := Int64.le_iff_toInt_le.mpr positive
  rw [rational?, rational?, scaled?, scaled?, Int64.toNat_toUInt64_of_le natural, Int64.cast_toNatClampNeg n natural]

theorem number_denotes {v w : Value} {number : Scaled} (known : v.scaled? = some number)
    (same : v.rational? = w.rational?) : v.DenotesAs w := by
  have denoted : v.rational? = some number.rational := congrArg (Option.map _) known
  exact .number v w number.rational denoted (same ▸ denoted)

theorem convert_denotes {v w : Value} {type : DataType} (done : v.convert? type = some w) : v.DenotesAs w := by
  cases convert_cases done with
  | null | same => exact .same _
  | idOfInt n positive => exact number_denotes rfl (int_rational n positive)
  | timestampOfInt n => exact .moment n
  | intOfId n word fits => exact number_denotes rfl (id_rational n word fits)
  | decimalOf _ scale number word before rescaled =>
      refine number_denotes before ?_
      rw [rational?, before, Option.map_some, Scaled.rescale_exact rescaled]
      rfl

section

variable {v : Value} {number : Scaled} {scale : UInt8}

theorem convert_decimal (known : v.scaled? = some number) :
    v.convert? (.decimal scale) =
      (number.rescale? scale).bind fun unscaled => (Scaled.word? unscaled).map fun word => .decimal word scale := by
  cases v with
  | int | id | decimal =>
      cases known
      rfl
  | null | bool | string | timestamp | idSet | stringSet => cases known

theorem decimal_of_exact (known : v.scaled? = some number) (narrow : number.scale ≤ DataType.maxScale)
    (narrow' : scale ≤ DataType.maxScale) {n : Int} (exact : number.rational = n / 10 ^ scale.toNat) :
    v.convert? (.decimal scale) = (Scaled.word? n).map fun word => .decimal word scale := by
  rw [convert_decimal known, Scaled.rescale_of_exact (scaled_small known) narrow narrow' exact, Option.bind_some]

end

section

variable {v w : Value} {a b : DataType} {number : Scaled}

theorem int_of_exact (typed : v.dataType? = some a) (convertible : a.Convertible .int) (known : v.scaled? = some number)
    {m : Int64} (exact : number.rational = Scaled.rational ⟨m.toInt, 0⟩) : v.convert? .int = some (int m) := by
  cases v with
  | int n =>
      cases known
      rw [Int64.toInt_inj.mp ((whole_rational_iff _ _).mp exact)]
      rfl
  | id n =>
      cases known
      change (Scaled.word? n.toNat).map int = _
      rw [(whole_rational_iff _ _).mp exact, Scaled.word_of_toInt]
      rfl
  | decimal =>
      cases typed
      cases convertible
  | null | bool | string | timestamp | idSet | stringSet => cases known

theorem id_of_exact (typed : v.dataType? = some a) (convertible : a.Convertible .id) (known : v.scaled? = some number)
    {m : UInt64} (exact : number.rational = Scaled.rational ⟨m.toNat, 0⟩) : v.convert? .id = some (id m) := by
  cases v with
  | int n =>
      cases known
      have whole : n.toInt = m.toNat := (whole_rational_iff _ _).mp exact
      have positive : 0 ≤ n.toInt := whole ▸ Int.natCast_nonneg _
      have natural : 0 ≤ n := Int64.le_iff_toInt_le.mpr positive
      change (if 0 ≤ n.toInt then some (id n.toUInt64) else none) = _
      rw [if_pos positive]
      refine congrArg (some ∘ id) (UInt64.toNat_inj.mp (Int.ofNat_inj.mp ?_))
      rw [Int64.toNat_toUInt64_of_le natural, Int64.cast_toNatClampNeg n natural, whole]
  | id n =>
      cases known
      rw [UInt64.toNat_inj.mp (Int.ofNat_inj.mp ((whole_rational_iff _ _).mp exact))]
      rfl
  | decimal =>
      cases typed
      cases convertible
  | null | bool | string | timestamp | idSet | stringSet => cases known

-- A value of the other type that denotes the same is what a value is converted to.
theorem convert_complete (typed : v.dataType? = some a) (typed' : w.dataType? = some b) (convertible : a.Convertible b)
    (narrow : a.scale ≤ DataType.maxScale) (narrow' : b.scale ≤ DataType.maxScale) (same : v.DenotesAs w) :
    v.convert? b = some w := by
  cases same with
  | same =>
      cases typed.symm.trans typed'
      exact convert_own typed
  | moment n =>
      cases typed'
      rfl
  | number _ _ q known known' =>
      obtain ⟨number, before, denoted⟩ := Option.map_eq_some_iff.mp known
      obtain ⟨number', after, denoted'⟩ := Option.map_eq_some_iff.mp known'
      have equal : number.rational = number'.rational := denoted.trans denoted'.symm
      cases w with
      | int m =>
          cases typed'
          cases after
          exact int_of_exact typed convertible before equal
      | id m =>
          cases typed'
          cases after
          exact id_of_exact typed convertible before equal
      | decimal word scale =>
          cases typed'
          cases after
          have scale' : scale ≤ DataType.maxScale := narrow'
          have exact : number.rational = (word.toInt : ℚ) / 10 ^ scale.toNat := equal
          rw [decimal_of_exact before (scale_of_type typed before ▸ narrow) scale' exact, Scaled.word_of_toInt]
          rfl
      | null | bool | string | timestamp | idSet | stringSet => cases after

-- A value that is beyond the type is not converted to it.
theorem exceeds_refused (exceeds : v.Exceeds b) : v.convert? b = none := by
  cases exceeds with
  | negative n below => exact if_neg (Int.not_le.mpr below)
  | large n above =>
      change (Scaled.word? n.toNat).map int = none
      rw [Scaled.word?, if_neg (by omega)]
      rfl
  | digits _ scale q known more =>
      obtain ⟨number, before, rfl⟩ := Option.map_eq_some_iff.mp known
      rw [convert_decimal before]
      cases rescaled : number.rescale? scale with
      | none => rfl
      | some n => exact absurd (Scaled.rescale_exact rescaled) (more n)
  | long _ scale n known beyond =>
      obtain ⟨number, before, exact⟩ := Option.map_eq_some_iff.mp known
      rw [convert_decimal before]
      cases rescaled : number.rescale? scale with
      | none => rfl
      | some m =>
          have same : (m : ℚ) / 10 ^ scale.toNat = n / 10 ^ scale.toNat := (Scaled.rescale_exact rescaled).symm.trans exact
          rw [div_left_inj' (Scaled.ten_pow_pos _).ne', Int.cast_inj] at same
          rw [Option.bind_some, same, Scaled.word?, if_neg (by omega)]
          rfl

theorem decimal_exceeds (typed : v.dataType? = some a) (narrow : a.scale ≤ DataType.maxScale) {scale : UInt8}
    (narrow' : scale ≤ DataType.maxScale) (known : v.scaled? = some number)
    (refused : v.convert? (.decimal scale) = none) : v.Exceeds (.decimal scale) := by
  have denoted : v.rational? = some number.rational := congrArg (Option.map _) known
  by_cases few : ∃ n : Int, number.rational = n / 10 ^ scale.toNat
  · obtain ⟨n, exact⟩ := few
    rw [decimal_of_exact known (scale_of_type typed known ▸ narrow) narrow' exact, Option.map_eq_none_iff] at refused
    exact .long v scale n (exact ▸ denoted) (Scaled.word_none refused)
  · exact .digits v scale number.rational denoted fun n exact => few ⟨n, exact⟩

theorem refused_exceeds (typed : v.dataType? = some a) (convertible : a.Convertible b)
    (narrow : a.scale ≤ DataType.maxScale) (narrow' : b.scale ≤ DataType.maxScale) (refused : v.convert? b = none) :
    v.Exceeds b := by
  cases convertible with
  | same =>
      rw [convert_own typed] at refused
      cases refused
  | intAsId =>
      cases v with
      | int n =>
          change (if 0 ≤ n.toInt then some (id n.toUInt64) else none) = _ at refused
          split at refused
          · cases refused
          · rename_i below
            exact .negative n (Int.not_le.mp below)
      | null | bool | id | decimal | string | timestamp | idSet | stringSet => cases typed
  | intAsTimestamp =>
      cases v with
      | int n => cases refused
      | null | bool | id | decimal | string | timestamp | idSet | stringSet => cases typed
  | idAsInt =>
      cases v with
      | id n =>
          change (Scaled.word? n.toNat).map int = _ at refused
          have beyond := Scaled.word_none (Option.map_eq_none_iff.mp refused)
          exact .large n (by omega)
      | null | bool | int | decimal | string | timestamp | idSet | stringSet => cases typed
  | intAsDecimal scale | idAsDecimal scale | decimalAsDecimal _ scale =>
      obtain ⟨number, known⟩ := number_of_type typed rfl
      exact decimal_exceeds typed narrow narrow' known refused

end

-- The second part speaks of the types between which values are converted, at the scales of columns.
theorem coerce_lossless :
    (∀ (v w : Value) (type : DataType), v.coerce type = .ok w →
      (w = .null ↔ v = .null) ∧ (v ≠ .null → w.dataType? = some type ∧ v.DenotesAs w) ∧ w.coerce type = .ok w) ∧
    ∀ (v : Value) (a b : DataType), v.dataType? = some a → a.Convertible b → a.scale ≤ DataType.maxScale →
      b.scale ≤ DataType.maxScale →
      (v.coerce b = .error (.typeMismatch s!"cannot use value {v.text} as type {b.text}") ↔
        ∀ w : Value, w.dataType? = some b → ¬v.DenotesAs w) ∧
      (v.coerce b = .error (.typeMismatch s!"cannot use value {v.text} as type {b.text}") ↔ v.Exceeds b) := by
  refine ⟨fun v w type done => ?_, fun v a b typed convertible narrow narrow' => ?_⟩
  · rw [coerce_ok_iff] at done ⊢
    have denotes := convert_denotes done
    have again := convert_again done
    rcases convert_typed v w type done with ⟨rfl, rfl⟩ | ⟨given, typed⟩
    · exact ⟨Iff.rfl, fun given => absurd rfl given, again⟩
    · refine ⟨⟨?_, fun none => absurd none given⟩, fun _ => ⟨typed, denotes⟩, again⟩
      rintro rfl
      cases typed
  · rw [coerce_error_iff]
    refine ⟨⟨fun refused w typed' same => ?_, fun none => ?_⟩, refused_exceeds typed convertible narrow narrow',
      exceeds_refused⟩
    · rw [convert_complete typed typed' convertible narrow narrow' same] at refused
      cases refused
    · cases done : v.convert? b with
      | none => rfl
      | some w =>
          rcases convert_typed v w b done with ⟨rfl, rfl⟩ | ⟨-, typed'⟩
          · cases typed
          · exact absurd (convert_denotes done) (none w typed')

-- The greatest id that is an integer and the one after it, and a negative amount with a digit that can go and one that
-- cannot.
theorem nearest_values_converted :
    let greatest := id 9223372036854775807
    let beyond := id 9223372036854775808
    let even := decimal (-150) 2
    let odd := decimal (-155) 2
    (greatest.coerce .int = .ok (int 9223372036854775807) ∧ greatest.DenotesAs (int 9223372036854775807)) ∧
      (beyond.coerce .int = .error (.typeMismatch "cannot use value 9223372036854775808 as type int") ∧
        ∀ w : Value, w.dataType? = some .int → ¬beyond.DenotesAs w) ∧
      (even.coerce (.decimal 1) = .ok (decimal (-15) 1) ∧ even.DenotesAs (decimal (-15) 1)) ∧
      odd.coerce (.decimal 1) = .error (.typeMismatch "cannot use value -1.55 as type decimal(1)") ∧
        odd.Exceeds (.decimal 1) := by
  intro greatest beyond even odd
  obtain ⟨sound, complete⟩ := coerce_lossless
  have refused : beyond.coerce .int = .error (.typeMismatch "cannot use value 9223372036854775808 as type int") := by
    decide +kernel
  have refused' : odd.coerce (.decimal 1) = .error (.typeMismatch "cannot use value -1.55 as type decimal(1)") := by
    decide +kernel
  have kept : greatest.coerce .int = .ok (int 9223372036854775807) := by decide +kernel
  have kept' : even.coerce (.decimal 1) = .ok (decimal (-15) 1) := by decide +kernel
  exact ⟨⟨kept, ((sound greatest _ .int kept).2.1 nofun).2⟩,
    ⟨refused, (complete beyond .id .int rfl .idAsInt (by decide) (by decide)).1.mp refused⟩,
    ⟨kept', ((sound even _ (.decimal 1) kept').2.1 nofun).2⟩, refused',
    (complete odd (.decimal 2) (.decimal 1) rfl (.decimalAsDecimal 2 1) (by decide) (by decide)).2.mp refused'⟩

end Value

end ShardQuery
