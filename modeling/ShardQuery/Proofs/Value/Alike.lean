import ShardQuery.Proofs.Value.Canonical
import ShardQuery.Proofs.Value.Number
/-!
Values that are logically equal. Main statement: rows whose lengths fit their counters have the same canonical bytes
exactly if they have equally many values and these are alike one by one, which is when the rows are equal.
-/

set_option autoImplicit false

namespace ShardQuery

namespace Value

-- Values of one kind are alike as numbers, as sets, or only if they are the same.
inductive Alike : Value → Value → Prop
  | null : Alike .null .null
  | bool (b : Bool) : Alike (.bool b) (.bool b)
  | int (n : Int64) : Alike (.int n) (.int n)
  | id (n : UInt64) : Alike (.id n) (.id n)
  | decimal (m n : Int64) (scale scale' : UInt8)
      (same : (m.toInt : ℚ) / 10 ^ scale.toNat = n.toInt / 10 ^ scale'.toNat) : Alike (.decimal m scale) (.decimal n scale')
  | string (s : String) : Alike (.string s) (.string s)
  | timestamp (t : Int64) : Alike (.timestamp t) (.timestamp t)
  | idSet (members others : List UInt64) (same : ∀ n, n ∈ members ↔ n ∈ others) : Alike (.idSet members) (.idSet others)
  | stringSet (members others : List String) (same : ∀ s, s ∈ members ↔ s ∈ others) :
      Alike (.stringSet members) (.stringSet others)

theorem id_members_eq_iff (members others : List UInt64) :
    idMembers members = idMembers others ↔ ∀ n, n ∈ members ↔ n ∈ others := by
  apply sorted_reps_eq_iff
  · simpa using fun a b c => UInt64.le_trans
  · simpa using fun a b => UInt64.le_total a b
  · simpa using fun a b => UInt64.le_antisymm

theorem string_members_eq_iff (members others : List String) :
    stringMembers members = stringMembers others ↔ ∀ s, s ∈ members ↔ s ∈ others := by
  apply sorted_reps_eq_iff
  · simpa using fun a b c => String.le_trans
  · simpa using String.le_total
  · simpa using fun a b => String.le_antisymm

theorem bool_inj {a b : Bool} (same : (bool a).canonical = (bool b).canonical) : a = b := by
  have bytes := List.singleton_inj.mp (List.cons.inj same).2
  cases a <;> cases b <;> first | rfl | exact nomatch bytes

theorem string_inj {s t : String} (same : stringBytes s = stringBytes t) : s = t := by
  have texts := (List.append_inj same (by simp)).2
  have read := congrArg Text.ofUtf8? texts
  rw [Text.ofUtf8_utf8, Text.ofUtf8_utf8] at read
  exact Option.some.inj read

theorem null_canonical {v : Value} (same : v.canonical = Value.null.canonical) : v = .null := by
  cases v with
  | null => rfl
  | bool | int | id | decimal | string | timestamp | idSet | stringSet => exact nomatch (List.cons.inj same).1

theorem decimal_inj {a b : Int64} {scale : UInt8} (same : (decimal a scale).canonical = (decimal b scale).canonical) :
    a = b := by
  have denoted := Option.some.inj ((decimal_canonical_iff a b scale scale).mp same)
  have positive : (10 : Int) ^ scale.toNat ≠ 0 := pow_ne_zero _ (by decide)
  exact Int64.toInt_inj.mp (Int.eq_of_mul_eq_mul_right positive ((Scaled.rational_eq_iff _ _).mp denoted))

theorem alike_canonical {v w : Value} (alike : v.Alike w) : v.canonical = w.canonical := by
  cases alike with
  | null | bool | int | id | string | timestamp => rfl
  | decimal m n scale scale' same => exact (decimal_canonical_iff m n scale scale').mpr (congrArg some same)
  | idSet members others same =>
      have listed := (id_members_eq_iff members others).mpr same
      simp only [canonical, listed]
  | stringSet members others same =>
      have listed := (string_members_eq_iff members others).mpr same
      simp only [canonical, listed]

-- The first byte tells the kind, so only values of one kind are left to be compared.
theorem canonical_alike {v w : Value} (measured : v.Measured) (measured' : w.Measured)
    (same : v.canonical = w.canonical) : v.Alike w := by
  have heads := congrArg List.head? same
  have rest := congrArg List.tail same
  cases v <;> cases w <;> try cases heads
  case null.null => exact .null
  case bool.bool => exact bool_inj same ▸ .bool _
  case int.int => exact Bytes.signed64_inj rest ▸ .int _
  case id.id => exact Bytes.word64_inj rest ▸ .id _
  case decimal.decimal m scale n scale' =>
      exact .decimal m n scale scale' (Option.some.inj ((decimal_canonical_iff m n scale scale').mp same))
  case string.string => exact string_inj rest ▸ .string _
  case timestamp.timestamp => exact Bytes.signed64_inj rest ▸ .timestamp _
  case idSet.idSet members others =>
      have fixed : Delimited Bytes.word64 fun _ => True := fixed_width_delimited 8 fun a => Bytes.little_length 8 _
      obtain ⟨-, words, -⟩ := counted_sequence_delimited fixed (idMembers members) (idMembers others) [] []
        (Nat.lt_of_le_of_lt (id_members_length_le members) measured)
        (Nat.lt_of_le_of_lt (id_members_length_le others) measured') (by simp) (by simp) (congrArg (· ++ []) rest)
      have listed := (List.map_injective_iff.mpr fun _ _ => Bytes.word64_inj) words
      exact .idSet members others ((id_members_eq_iff members others).mp listed)
  case stringSet.stringSet members others =>
      obtain ⟨-, texts, -⟩ := counted_sequence_delimited string_bytes_delimited (stringMembers members)
        (stringMembers others) [] [] (Nat.lt_of_le_of_lt (string_members_length_le members) measured.1)
        (Nat.lt_of_le_of_lt (string_members_length_le others) measured'.1)
        (fun s member => measured.2 s (mem_of_string_members members s member))
        (fun s member => measured'.2 s (mem_of_string_members others s member)) (congrArg (· ++ []) rest)
      have listed := (List.map_injective_iff.mpr fun _ _ => string_inj) texts
      exact .stringSet members others ((string_members_eq_iff members others).mp listed)

end Value

namespace Row

theorem canonical_bytes_tell_apart (r s : Row) (measured : r.Measured) (measured' : s.Measured) :
    (r.canonical = s.canonical ↔ List.Forall₂ Value.Alike r.values s.values) ∧
      (r.canonical = s.canonical ↔ (r == s) = true) := by
  refine ⟨?_, canonical_eq_iff r s measured measured'⟩
  rw [canonical_eq_iff r s measured measured', beq_iff_map_canonical, ← List.forall₂_eq_eq_eq,
    List.forall₂_map_left_iff, List.forall₂_map_right_iff]
  constructor
  · intro same
    obtain ⟨counts, each⟩ := List.forall₂_iff_zip.mp same
    refine List.forall₂_iff_zip.mpr ⟨counts, fun paired => ?_⟩
    obtain ⟨among, among'⟩ := List.of_mem_zip paired
    exact Value.canonical_alike (measured.2 _ among) (measured'.2 _ among') (each paired)
  · exact List.Forall₂.imp fun _ _ => Value.alike_canonical

-- The first sum in other digits and the sets in another order.
theorem respelled_rows_alike :
    let r : Row := ⟨[.decimal (-1200) 3, .idSet [7, 3, 7], .stringSet ["b", "a"], .null]⟩
    let s : Row := ⟨[.decimal (-12) 1, .idSet [3, 7], .stringSet ["a", "b", "b"], .null]⟩
    r.Measured ∧ s.Measured ∧ r.canonical = s.canonical ∧ (r == s) = true := by
  intro r s
  have measured : r.Measured := by decide
  have measured' : s.Measured := by decide
  obtain ⟨bytes, equal⟩ := canonical_bytes_tell_apart r s measured measured'
  have same : r.canonical = s.canonical := by
    refine bytes.mpr (.cons (.decimal _ _ _ _ ?_) (.cons (.idSet _ _ ?_) (.cons (.stringSet _ _ ?_) (.cons .null .nil))))
    · exact (Scaled.rational_eq_iff ⟨_, 3⟩ ⟨_, 1⟩).mpr (by decide)
    · simp
    · simp [or_comm]
  exact ⟨measured, measured', same, equal.mp same⟩

end Row

end ShardQuery
