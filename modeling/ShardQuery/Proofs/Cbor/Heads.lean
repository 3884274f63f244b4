import ShardQuery.Cbor.Reader
/-!
Heads of items. Main statements: a head is read from the front of any bytes that begin with it, and from no part of
it.
-/

set_option autoImplicit false

namespace ShardQuery.Cbor

theorem take_front (front rest : Bytes) : take? front.length (front ++ rest) = some (front, rest) := by
  rw [take?, List.take_left, if_neg (Nat.lt_irrefl _), List.drop_left]

theorem big_length (width n : Nat) : (big width n).length = width := by
  rw [big, List.length_reverse, Bytes.little_length]

theorem read_big (width n : Nat) (rest : Bytes) (small : n < 256 ^ width) :
    readBig? width (big width n ++ rest) = some (n, rest) := by
  have front := take_front (big width n) rest
  rw [big_length] at front
  rw [readBig?, front, Option.map_some]
  change some (Bytes.value (List.reverse (List.reverse _)), rest) = _
  rw [List.reverse_reverse, Bytes.value_little, Nat.mod_eq_of_lt small]

theorem first_byte (major info : Nat) (kind : major < 7) (short : info < 32) :
    (UInt8.ofNat (32 * major + info)).toNat / 32 = major ∧ (UInt8.ofNat (32 * major + info)).toNat % 32 = info := by
  rw [UInt8.toNat_ofNat_of_lt' (show _ < UInt8.size by change _ < 256; omega)]
  omega

theorem width_code_lt {info width : Nat} (code : widthOf? info = some width) : info < 28 := by
  apply Nat.lt_of_not_le
  intro beyond
  obtain ⟨more, rfl⟩ := Nat.exists_eq_add_of_le beyond
  rw [Nat.add_comm] at code
  cases code

theorem read_head_wide (major info width argument : Nat) (rest : Bytes) (kind : major < 7) (long : 24 ≤ info)
    (code : widthOf? info = some width) (small : argument < 256 ^ width) :
    readHead? (UInt8.ofNat (32 * major + info) :: (big width argument ++ rest)) = some (.sized major argument, rest) := by
  have short := width_code_lt code
  obtain ⟨front, back⟩ := first_byte major info kind (by omega)
  rw [readHead?, front, back, if_neg (by omega), if_neg (by omega), if_neg (by omega), code, Option.bind_eq_bind,
    Option.bind_some, read_big width argument rest small]
  rfl

theorem read_head (major argument : Nat) (rest : Bytes) (kind : major < 7) (small : argument < 2 ^ 64) :
    readHead? (head major argument ++ rest) = some (.sized major argument, rest) := by
  rw [head]
  split
  · rename_i tiny
    obtain ⟨front, back⟩ := first_byte major argument kind (by omega)
    rw [List.singleton_append, readHead?, front, back, if_neg (by omega), if_pos tiny]
  · split
    · exact read_head_wide major 24 1 argument rest kind (by decide) rfl (by omega)
    · split
      · exact read_head_wide major 25 2 argument rest kind (by decide) rfl (by omega)
      · split
        · exact read_head_wide major 26 4 argument rest kind (by decide) rfl (by omega)
        · exact read_head_wide major 27 8 argument rest kind (by decide) rfl (by omega)

theorem head_length_pos (major argument : Nat) : 0 < (head major argument).length := by
  rw [head]
  repeat' split
  all_goals exact Nat.succ_pos _

theorem take_cut (count : Nat) (bytes : Bytes) (short : bytes.length < count) : take? count bytes = none := by
  rw [take?, if_pos]
  rw [List.length_take]
  omega

theorem read_head_wide_cut (major info width argument cut : Nat) (kind : major < 7) (long : 24 ≤ info)
    (code : widthOf? info = some width) (short : cut < (UInt8.ofNat (32 * major + info) :: big width argument).length) :
    readHead? ((UInt8.ofNat (32 * major + info) :: big width argument).take cut) = none := by
  rw [List.length_cons, big_length] at short
  cases cut with
  | zero => rfl
  | succ cut =>
      have small := width_code_lt code
      obtain ⟨front, back⟩ := first_byte major info kind (by omega)
      have part : ((big width argument).take cut).length < width := by
        rw [List.length_take]
        omega
      rw [List.take_succ_cons, readHead?, front, back, if_neg (by omega), if_neg (by omega), if_neg (by omega), code,
        Option.bind_eq_bind, Option.bind_some, readBig?, take_cut width _ part]
      rfl

theorem read_head_cut (major argument cut : Nat) (kind : major < 7) (short : cut < (head major argument).length) :
    readHead? ((head major argument).take cut) = none := by
  rw [head] at short ⊢
  split at short
  · rename_i tiny
    rw [if_pos tiny]
    rw [List.length_singleton, Nat.lt_one_iff] at short
    rw [short]
    rfl
  · rename_i wide
    rw [if_neg wide]
    split at short
    · rename_i tiny
      rw [if_pos tiny]
      exact read_head_wide_cut major 24 1 argument cut kind (by decide) rfl short
    · rename_i wide
      rw [if_neg wide]
      split at short
      · rename_i tiny
        rw [if_pos tiny]
        exact read_head_wide_cut major 25 2 argument cut kind (by decide) rfl short
      · rename_i wide
        rw [if_neg wide]
        split at short
        · rename_i tiny
          rw [if_pos tiny]
          exact read_head_wide_cut major 26 4 argument cut kind (by decide) rfl short
        · rename_i wide
          rw [if_neg wide]
          exact read_head_wide_cut major 27 8 argument cut kind (by decide) rfl short

end ShardQuery.Cbor
