import ShardQuery.Text.Fold
import ShardQuery.Text.Lower
/-!
The two ways of comparing names. Main statement: names that differ in the case of ASCII letters only have one
lowercase form.
-/

set_option autoImplicit false

namespace ShardQuery.Text

-- Nothing that lowercasing asks of a character depends on the case of an ASCII letter.
structure Caseless (c : Char) : Prop where
  ignored : ignorable c.toLower = ignorable c
  cased : cased c.toLower = cased c
  small : lowerChar c.toLower = lowerChar c
  sigma : c.toLower = capitalSigma ↔ c = capitalSigma

theorem capital_caseless : ∀ i < 26,
    ignorable (Char.ofNat (65 + i)).toLower = ignorable (Char.ofNat (65 + i)) ∧
    cased (Char.ofNat (65 + i)).toLower = cased (Char.ofNat (65 + i)) ∧
    lowerChar (Char.ofNat (65 + i)).toLower = lowerChar (Char.ofNat (65 + i)) ∧
    ((Char.ofNat (65 + i)).toLower = capitalSigma ↔ Char.ofNat (65 + i) = capitalSigma) := by
  decide +kernel

-- Only the capitals of ASCII are folded.
theorem folded_or_same (c : Char) : c.toLower = c ∨ ∃ i < 26, c = Char.ofNat (65 + i) := by
  by_cases capital : 'A'.val ≤ c.val ∧ c.val ≤ 'Z'.val
  · have low : 65 ≤ c.toNat := UInt32.le_iff_toNat_le.mp capital.1
    have high : c.toNat ≤ 90 := UInt32.le_iff_toNat_le.mp capital.2
    refine .inr ⟨c.toNat - 65, by omega, ?_⟩
    rw [Nat.add_sub_cancel' low, Char.ofNat_toNat]
  · exact .inl (dif_neg capital)

theorem caseless (c : Char) : Caseless c := by
  rcases folded_or_same c with same | ⟨i, small, rfl⟩
  · exact ⟨by rw [same], by rw [same], by rw [same], by rw [same]⟩
  · obtain ⟨ignored, cased, small, sigma⟩ := capital_caseless i small
    exact ⟨ignored, cased, small, sigma⟩

theorem opens_caseless (name : List Char) : opensWithCased (name.map Char.toLower) = opensWithCased name := by
  induction name with
  | nil => rfl
  | cons c rest ih => rw [List.map_cons, opensWithCased, opensWithCased, (caseless c).ignored, (caseless c).cased, ih]

theorem lower_from_caseless (inWord : Bool) (name : List Char) :
    lowerFrom inWord (name.map Char.toLower) = lowerFrom inWord name := by
  induction name generalizing inWord with
  | nil => rfl
  | cons c rest ih =>
      rw [List.map_cons, lowerFrom, lowerFrom, ih, opens_caseless, (caseless c).ignored, (caseless c).cased,
        (caseless c).small]
      simp only [(caseless c).sigma]

theorem ascii_toLower (c : Char) : c.toLower.toNat < 128 ↔ c.toNat < 128 := by
  rcases folded_or_same c with same | ⟨i, small, rfl⟩
  · rw [same]
  · have table : ∀ i < 26, (Char.ofNat (65 + i)).toLower.toNat < 128 ∧ (Char.ofNat (65 + i)).toNat < 128 := by
      decide +kernel
    exact iff_of_true (table i small).1 (table i small).2

theorem lower_of_same (a b : String) (same : same a b = true) : lower a = lower b := by
  have folded : a.toList.map Char.toLower = b.toList.map Char.toLower := beq_iff_eq.mp same
  have ascii : a.toList.all (·.toNat < 128) = b.toList.all (·.toNat < 128) := by
    have narrow (name : List Char) : (name.map Char.toLower).all (·.toNat < 128) = name.all (·.toNat < 128) := by
      rw [List.all_map]
      congr 1
      funext c
      exact decide_eq_decide.mpr (ascii_toLower c)
    rw [← narrow, folded, narrow]
  have wide : lowerChars a.toList = lowerChars b.toList := by
    rw [lowerChars, ← lower_from_caseless, folded, lower_from_caseless, lowerChars]
  rw [lower, lower, ascii, folded, wide]

-- Names of ASCII letters have one lowercase form only if they differ in nothing but their case.
theorem same_of_lower (a b : String) (ascii : a.toList.all (·.toNat < 128) = true)
    (ascii' : b.toList.all (·.toNat < 128) = true) (alike : lower a = lower b) : same a b = true := by
  rw [lower, lower, if_pos ascii, if_pos ascii'] at alike
  exact (same_iff a b).mpr alike

theorem same_refl (name : String) : same name name = true := (same_iff name name).mpr rfl

theorem same_symm (a b : String) (alike : same a b = true) : same b a = true :=
  (same_iff b a).mpr ((same_iff a b).mp alike).symm

theorem same_trans (a b c : String) (first : same a b = true) (second : same b c = true) : same a c = true :=
  (same_iff a c).mpr (((same_iff a b).mp first).trans ((same_iff b c).mp second))

end ShardQuery.Text
