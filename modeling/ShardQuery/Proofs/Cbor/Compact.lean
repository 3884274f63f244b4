import Mathlib.Tactic.SplitIfs
import ShardQuery.Proofs.Cbor.Heads
import ShardQuery.Proofs.Cbor.Lawful
/-!
The codec at hand. Main statements: two steps of fuel for every byte are enough for a reader, more make no difference,
and the codec keeps the laws that are asked of one.
-/

set_option autoImplicit false

namespace ShardQuery.Cbor

section Consumed

variable {bytes rest : Bytes}

theorem take_shorter {count : Nat} {front : Bytes} (taken : take? count bytes = some (front, rest)) :
    rest.length ≤ bytes.length := by
  rw [take?] at taken
  split at taken
  · cases taken
  · cases taken
    rw [List.length_drop]
    exact Nat.sub_le _ _

theorem head_shorter {head : Head} (read : readHead? bytes = some (head, rest)) : rest.length < bytes.length := by
  cases bytes with
  | nil => cases read
  | cons first bytes =>
      apply Nat.lt_succ_of_le
      rw [readHead?] at read
      dsimp only at read
      split_ifs at read
      -- All kinds of heads but those whose argument follows are one byte long.
      any_goals
        cases read
        exact Nat.le_refl _
      obtain ⟨width, -, read⟩ := Option.bind_eq_some_iff.mp read
      obtain ⟨⟨argument, back⟩, known, same⟩ := Option.bind_eq_some_iff.mp read
      cases same
      obtain ⟨⟨front, back⟩, taken, same⟩ := Option.map_eq_some_iff.mp known
      cases same
      exact take_shorter taken

theorem chunks_shorter {major fuel : Nat} {content : Bytes} (read : readChunks? major fuel bytes = some (content, rest)) :
    rest.length ≤ bytes.length := by
  induction fuel generalizing bytes content rest with
  | zero => cases read
  | succ fuel ih =>
      rw [readChunks?] at read
      obtain ⟨⟨head, back⟩, begun, read⟩ := Option.bind_eq_some_iff.mp read
      have shorter := head_shorter begun
      cases head with
      | stop =>
          cases read
          exact Nat.le_of_lt shorter
      | sized other count =>
          dsimp only at read
          split at read
          · obtain ⟨⟨chunk, back⟩, taken, read⟩ := Option.bind_eq_some_iff.mp read
            obtain ⟨⟨chunks, back⟩, others, read⟩ := Option.bind_eq_some_iff.mp read
            cases read
            have once := take_shorter taken
            exact Nat.le_of_lt (Nat.lt_of_le_of_lt (Nat.le_trans (ih others) once) shorter)
          · cases read
      | indefinite major => cases read
      | simple code => cases read
      | float width => cases read

end Consumed

mutual
-- An item is at least its head.
theorem item_shorter {fuel room : Nat} {bytes rest : Bytes} {item : Item}
    (read : readItem? fuel room bytes = some (item, rest)) : rest.length < bytes.length := by
  match fuel with
  | 0 =>
      rw [readItem?] at read
      cases read
  | fuel + 1 =>
      rw [readItem?] at read
      split at read
      case h_1 | h_9 | h_14 | h_17 => cases read
      case h_2 n back begun | h_3 n back begun =>
        cases read
        exact head_shorter begun
      case h_4 count back begun =>
        obtain ⟨⟨content, back⟩, taken, same⟩ := Option.map_eq_some_iff.mp read
        cases same
        exact Nat.lt_of_le_of_lt (take_shorter taken) (head_shorter begun)
      case h_5 count back begun =>
        obtain ⟨⟨content, back⟩, taken, read⟩ := Option.bind_eq_some_iff.mp read
        obtain ⟨s, -, same⟩ := Option.map_eq_some_iff.mp read
        cases same
        exact Nat.lt_of_le_of_lt (take_shorter taken) (head_shorter begun)
      case h_6 count back begun =>
        split at read
        · cases read
        · obtain ⟨⟨items, back⟩, others, same⟩ := Option.map_eq_some_iff.mp read
          cases same
          exact Nat.lt_of_le_of_lt (items_shorter others) (head_shorter begun)
      case h_7 count back begun =>
        split at read
        · cases read
        · obtain ⟨⟨members, back⟩, others, same⟩ := Option.map_eq_some_iff.mp read
          cases same
          exact Nat.lt_of_le_of_lt (members_shorter others) (head_shorter begun)
      case h_8 tag back begun =>
        split at read
        · cases read
        · obtain ⟨⟨item, back⟩, inner, same⟩ := Option.map_eq_some_iff.mp read
          cases same
          exact Nat.lt_trans (item_shorter inner) (head_shorter begun)
      case h_10 back begun =>
        obtain ⟨⟨content, back⟩, chunks, same⟩ := Option.map_eq_some_iff.mp read
        cases same
        exact Nat.lt_of_le_of_lt (chunks_shorter chunks) (head_shorter begun)
      case h_11 back begun =>
        obtain ⟨⟨content, back⟩, chunks, read⟩ := Option.bind_eq_some_iff.mp read
        obtain ⟨s, -, same⟩ := Option.map_eq_some_iff.mp read
        cases same
        exact Nat.lt_of_le_of_lt (chunks_shorter chunks) (head_shorter begun)
      case h_12 back begun =>
        split at read
        · cases read
        · obtain ⟨⟨items, back⟩, others, same⟩ := Option.map_eq_some_iff.mp read
          cases same
          exact Nat.lt_of_le_of_lt (items_to_stop_shorter others) (head_shorter begun)
      case h_13 back begun =>
        split at read
        · cases read
        · obtain ⟨⟨members, back⟩, others, same⟩ := Option.map_eq_some_iff.mp read
          cases same
          exact Nat.lt_of_le_of_lt (members_to_stop_shorter others) (head_shorter begun)
      case h_15 code back begun =>
        obtain ⟨item, -, same⟩ := Option.map_eq_some_iff.mp read
        cases same
        exact head_shorter begun
      case h_16 width back begun =>
        obtain ⟨⟨content, back⟩, taken, same⟩ := Option.map_eq_some_iff.mp read
        cases same
        exact Nat.lt_of_le_of_lt (take_shorter taken) (head_shorter begun)

theorem items_shorter {fuel room count : Nat} {bytes rest : Bytes} {items : List Item}
    (read : readItems? fuel room count bytes = some (items, rest)) : rest.length ≤ bytes.length := by
  match fuel, count with
  | _, 0 =>
      rw [readItems?] at read
      cases read
      exact Nat.le_refl _
  | 0, count + 1 =>
      rw [readItems?] at read
      cases read
  | fuel + 1, count + 1 =>
      rw [readItems?] at read
      obtain ⟨⟨item, back⟩, first, read⟩ := Option.bind_eq_some_iff.mp read
      obtain ⟨⟨others, back⟩, later, same⟩ := Option.map_eq_some_iff.mp read
      cases same
      exact Nat.le_trans (items_shorter later) (Nat.le_of_lt (item_shorter first))

theorem members_shorter {fuel room count : Nat} {bytes rest : Bytes} {members : List (Item × Item)}
    (read : readMembers? fuel room count bytes = some (members, rest)) : rest.length ≤ bytes.length := by
  match fuel, count with
  | _, 0 =>
      rw [readMembers?] at read
      cases read
      exact Nat.le_refl _
  | 0, count + 1 =>
      rw [readMembers?] at read
      cases read
  | fuel + 1, count + 1 =>
      rw [readMembers?] at read
      obtain ⟨⟨key, back⟩, first, read⟩ := Option.bind_eq_some_iff.mp read
      obtain ⟨⟨item, back⟩, second, read⟩ := Option.bind_eq_some_iff.mp read
      obtain ⟨⟨others, back⟩, later, same⟩ := Option.map_eq_some_iff.mp read
      cases same
      exact Nat.le_trans (members_shorter later)
        (Nat.le_of_lt (Nat.lt_trans (item_shorter second) (item_shorter first)))

theorem items_to_stop_shorter {fuel room : Nat} {bytes rest : Bytes} {items : List Item}
    (read : readItemsToStop? fuel room bytes = some (items, rest)) : rest.length ≤ bytes.length := by
  match fuel with
  | 0 =>
      rw [readItemsToStop?] at read
      cases read
  | fuel + 1 =>
      rw [readItemsToStop?] at read
      split at read
      · cases read
        exact List.length_drop ▸ Nat.sub_le _ _
      · obtain ⟨⟨item, back⟩, first, read⟩ := Option.bind_eq_some_iff.mp read
        obtain ⟨⟨others, back⟩, later, same⟩ := Option.map_eq_some_iff.mp read
        cases same
        exact Nat.le_trans (items_to_stop_shorter later) (Nat.le_of_lt (item_shorter first))

theorem members_to_stop_shorter {fuel room : Nat} {bytes rest : Bytes} {members : List (Item × Item)}
    (read : readMembersToStop? fuel room bytes = some (members, rest)) : rest.length ≤ bytes.length := by
  match fuel with
  | 0 =>
      rw [readMembersToStop?] at read
      cases read
  | fuel + 1 =>
      rw [readMembersToStop?] at read
      split at read
      · cases read
        exact List.length_drop ▸ Nat.sub_le _ _
      · obtain ⟨⟨key, back⟩, first, read⟩ := Option.bind_eq_some_iff.mp read
        obtain ⟨⟨item, back⟩, second, read⟩ := Option.bind_eq_some_iff.mp read
        obtain ⟨⟨others, back⟩, later, same⟩ := Option.map_eq_some_iff.mp read
        cases same
        exact Nat.le_trans (members_to_stop_shorter later)
          (Nat.le_of_lt (Nat.lt_trans (item_shorter second) (item_shorter first)))
end

mutual
-- Two steps of fuel for every byte: the bytes of a list leave one for the step over each of its items.
theorem item_fueled (fuel fuel' room : Nat) (bytes : Bytes) (enough : 2 * bytes.length + 1 ≤ fuel)
    (enough' : 2 * bytes.length + 1 ≤ fuel') : readItem? fuel room bytes = readItem? fuel' room bytes := by
  match fuel, fuel' with
  | 0, _ => omega
  | _ + 1, 0 => omega
  | fuel + 1, fuel' + 1 =>
      rw [readItem?, readItem?]
      split
      -- What opens something is read on with less fuel, from the bytes behind its head.
      case h_6 count back begun =>
        have shorter := head_shorter begun
        rw [items_fueled fuel fuel' (room - 1) count back (by omega) (by omega)]
      case h_7 count back begun =>
        have shorter := head_shorter begun
        rw [members_fueled fuel fuel' (room - 1) count back (by omega) (by omega)]
      case h_8 tag back begun =>
        have shorter := head_shorter begun
        rw [item_fueled fuel fuel' (room - 1) back (by omega) (by omega)]
      case h_12 back begun =>
        have shorter := head_shorter begun
        rw [items_to_stop_fueled fuel fuel' (room - 1) back (by omega) (by omega)]
      case h_13 back begun =>
        have shorter := head_shorter begun
        rw [members_to_stop_fueled fuel fuel' (room - 1) back (by omega) (by omega)]
      all_goals rfl

theorem items_fueled (fuel fuel' room count : Nat) (bytes : Bytes) (enough : 2 * bytes.length + 2 ≤ fuel)
    (enough' : 2 * bytes.length + 2 ≤ fuel') : readItems? fuel room count bytes = readItems? fuel' room count bytes := by
  match fuel, fuel', count with
  | _, _, 0 => rw [readItems?, readItems?]
  | 0, _, _ + 1 => omega
  | _ + 1, 0, _ + 1 => omega
  | fuel + 1, fuel' + 1, count + 1 =>
      rw [readItems?, readItems?, item_fueled fuel fuel' room bytes (by omega) (by omega)]
      apply Option.bind_congr
      intro (item, rest) read
      have shorter := item_shorter read
      dsimp only
      rw [items_fueled fuel fuel' room count rest (by omega) (by omega)]

theorem members_fueled (fuel fuel' room count : Nat) (bytes : Bytes) (enough : 2 * bytes.length + 2 ≤ fuel)
    (enough' : 2 * bytes.length + 2 ≤ fuel') :
    readMembers? fuel room count bytes = readMembers? fuel' room count bytes := by
  match fuel, fuel', count with
  | _, _, 0 => rw [readMembers?, readMembers?]
  | 0, _, _ + 1 => omega
  | _ + 1, 0, _ + 1 => omega
  | fuel + 1, fuel' + 1, count + 1 =>
      rw [readMembers?, readMembers?, item_fueled fuel fuel' room bytes (by omega) (by omega)]
      apply Option.bind_congr
      intro (key, rest) named
      have short := item_shorter named
      dsimp only
      rw [item_fueled fuel fuel' room rest (by omega) (by omega)]
      apply Option.bind_congr
      intro (item, rest) read
      have shorter := item_shorter read
      dsimp only
      rw [members_fueled fuel fuel' room count rest (by omega) (by omega)]

theorem items_to_stop_fueled (fuel fuel' room : Nat) (bytes : Bytes) (enough : 2 * bytes.length + 2 ≤ fuel)
    (enough' : 2 * bytes.length + 2 ≤ fuel') : readItemsToStop? fuel room bytes = readItemsToStop? fuel' room bytes := by
  match fuel, fuel' with
  | 0, _ => omega
  | _ + 1, 0 => omega
  | fuel + 1, fuel' + 1 =>
      rw [readItemsToStop?, readItemsToStop?, item_fueled fuel fuel' room bytes (by omega) (by omega)]
      congr 1
      apply Option.bind_congr
      intro (item, rest) read
      have shorter := item_shorter read
      dsimp only
      rw [items_to_stop_fueled fuel fuel' room rest (by omega) (by omega)]

theorem members_to_stop_fueled (fuel fuel' room : Nat) (bytes : Bytes) (enough : 2 * bytes.length + 2 ≤ fuel)
    (enough' : 2 * bytes.length + 2 ≤ fuel') :
    readMembersToStop? fuel room bytes = readMembersToStop? fuel' room bytes := by
  match fuel, fuel' with
  | 0, _ => omega
  | _ + 1, 0 => omega
  | fuel + 1, fuel' + 1 =>
      rw [readMembersToStop?, readMembersToStop?, item_fueled fuel fuel' room bytes (by omega) (by omega)]
      congr 1
      apply Option.bind_congr
      intro (key, rest) named
      have short := item_shorter named
      dsimp only
      rw [item_fueled fuel fuel' room rest (by omega) (by omega)]
      apply Option.bind_congr
      intro (item, rest) read
      have shorter := item_shorter read
      dsimp only
      rw [members_to_stop_fueled fuel fuel' room rest (by omega) (by omega)]
end

namespace Codec

open Item

theorem items_next (fuel room count : Nat) (bytes : Bytes) (enough : 2 * bytes.length + 2 ≤ fuel) :
    readItems? fuel room count bytes = compact.nextItems room count bytes := by
  induction count generalizing fuel bytes with
  | zero => rw [readItems?, nextItems]
  | succ count ih =>
      obtain ⟨fuel, rfl⟩ : ∃ less, fuel = less + 1 := ⟨fuel - 1, by omega⟩
      rw [readItems?, nextItems, item_fueled fuel (2 * bytes.length + 2) room bytes (by omega) (by omega)]
      apply Option.bind_congr
      intro (item, rest) read
      have shorter := item_shorter read
      dsimp only
      rw [ih fuel rest (by omega)]

theorem members_next (fuel room count : Nat) (bytes : Bytes) (enough : 2 * bytes.length + 2 ≤ fuel) :
    readMembers? fuel room count bytes = compact.nextMembers room count bytes := by
  induction count generalizing fuel bytes with
  | zero => rw [readMembers?, nextMembers]
  | succ count ih =>
      obtain ⟨fuel, rfl⟩ : ∃ less, fuel = less + 1 := ⟨fuel - 1, by omega⟩
      rw [readMembers?, nextMembers, item_fueled fuel (2 * bytes.length + 2) room bytes (by omega) (by omega)]
      apply Option.bind_congr
      intro (key, rest) named
      have short := item_shorter named
      dsimp only
      rw [item_fueled fuel (2 * rest.length + 2) room rest (by omega) (by omega)]
      apply Option.bind_congr
      intro (item, rest) read
      have shorter := item_shorter read
      dsimp only
      rw [ih fuel rest (by omega)]

theorem members_length {codec : Codec} {room count : Nat} {bytes rest : Bytes} {members : List (Item × Item)}
    (read : codec.nextMembers room count bytes = some (members, rest)) : members.length = count := by
  induction count generalizing bytes members with
  | zero =>
      cases read
      rfl
  | succ count ih =>
      rw [nextMembers] at read
      obtain ⟨⟨key, back⟩, -, read⟩ := Option.bind_eq_some_iff.mp read
      obtain ⟨⟨item, back⟩, -, read⟩ := Option.bind_eq_some_iff.mp read
      obtain ⟨⟨others, back⟩, later, same⟩ := Option.map_eq_some_iff.mp read
      cases same
      rw [List.length_cons, ih later]

theorem encode_held (item : Item) : item.encode ≠ [] := by
  have headed (major argument : Nat) (content : Bytes) : head major argument ++ content ≠ [] := fun none =>
    absurd (List.append_eq_nil_iff.mp none).1 (List.length_pos_iff.mp (head_length_pos major argument))
  cases item with
  | natural n => exact List.length_pos_iff.mp (head_length_pos 0 n)
  | negative n => exact List.length_pos_iff.mp (head_length_pos 1 n)
  | bytes content => exact headed 2 _ content
  | text s => exact headed 3 _ _
  | array items => exact headed 4 _ _
  | map members => exact headed 5 _ _
  | tagged item => exact headed 6 0 _
  | looseMap | bool | null | undefined | float => exact List.cons_ne_nil _ _

theorem encode_items (items : List Item) : encodeItems items = items.flatMap encode := by
  induction items with
  | nil => rfl
  | cons item items ih => rw [encodeItems, List.flatMap_cons, ih]

theorem encode_members (members : List (Item × Item)) : encodeMembers members = members.flatMap compact.writeMember := by
  induction members with
  | nil => rfl
  | cons member members ih =>
      obtain ⟨key, item⟩ := member
      rw [encodeMembers, List.flatMap_cons, ih]
      rfl

theorem compact_scalar_read (item : Item) (room : Nat) (rest : Bytes) (scalar : item.Scalar) :
    compact.next room (item.encode ++ rest) = some (item, rest) := by
  change readItem? (_ + 1) room _ = _
  cases item with
  | natural n =>
      rw [readItem?, encode, read_head 0 n rest (by decide) scalar]
      rfl
  | negative n =>
      rw [readItem?, encode, read_head 1 n rest (by decide) scalar]
      rfl
  | text s =>
      rw [readItem?, encode, List.append_assoc, read_head 3 _ _ (by decide) scalar]
      change Option.bind (take? _ _) _ = _
      rw [take_front, Option.bind_some]
      change Option.map _ (Text.ofUtf8? _) = _
      rw [Text.ofUtf8_utf8]
      rfl
  | bool b =>
      rw [readItem?, encode]
      cases b <;> rfl
  | null =>
      rw [readItem?, encode]
      rfl
  | bytes | array | map | looseMap | tagged | undefined | float => exact scalar.elim

-- Without a head there is no item.
theorem headless {room : Nat} {bytes : Bytes} (begun : readHead? bytes = none) : compact.next room bytes = none := by
  change readItem? (_ + 1) room bytes = _
  rw [readItem?, begun]

theorem compact_scalar_cut (item : Item) (room cut : Nat) (scalar : item.Scalar) (short : cut < item.encode.length) :
    compact.next room (item.encode.take cut) = none := by
  cases item with
  | natural n => exact headless (read_head_cut 0 n cut (by decide) short)
  | negative n => exact headless (read_head_cut 1 n cut (by decide) short)
  | text s =>
      rw [encode, List.length_append] at short
      rw [encode]
      by_cases within : cut < (head 3 (Text.utf8 s).length).length
      · rw [List.take_append_of_le_length (Nat.le_of_lt within)]
        exact headless (read_head_cut 3 _ cut (by decide) within)
      · rw [List.take_append, List.take_of_length_le (Nat.le_of_not_lt within)]
        change readItem? (_ + 1) room _ = _
        rw [readItem?, read_head 3 _ _ (by decide) scalar]
        change Option.bind (take? _ _) _ = _
        rw [take_cut, Option.bind_none]
        rw [List.length_take]
        omega
  | bool b =>
      rw [Nat.lt_one_iff.mp short, List.take_zero]
      exact headless rfl
  | null =>
      rw [Nat.lt_one_iff.mp short, List.take_zero]
      exact headless rfl
  | bytes | array | map | looseMap | tagged | undefined | float => exact scalar.elim

theorem compact_array_read (room count : Nat) (rest : Bytes) (small : count < 2 ^ 64) :
    compact.next (room + 1) (head 4 count ++ rest) =
      (compact.nextItems room count rest).map fun (items, rest) => (.array items, rest) := by
  have front := head_length_pos 4 count
  change readItem? (_ + 1) _ _ = _
  rw [readItem?, read_head 4 count rest (by decide) small]
  change Option.map _ (readItems? _ room count rest) = _
  rw [items_next]
  rw [List.length_append]
  omega

theorem compact_map_read (room count : Nat) (rest : Bytes) (small : count < 2 ^ 64) :
    compact.next (room + 1) (head 5 count ++ rest) =
      (compact.nextMembers room count rest).map fun (members, rest) => (.map members, rest) := by
  have front := head_length_pos 5 count
  change readItem? (_ + 1) _ _ = _
  rw [readItem?, read_head 5 count rest (by decide) small]
  change Option.map _ (readMembers? _ room count rest) = _
  rw [members_next _ _ _ _ (by rw [List.length_append]; omega)]
  apply Option.map_congr
  intro (members, back) read
  have definite : mapBegun (head 5 count ++ rest) members = .map members := by
    rw [mapBegun, members_length read, if_pos]
    exact List.isPrefixOf_iff_prefix.mpr (List.prefix_append _ _)
  exact congrArg (·, back) definite

theorem compact_full (major count : Nat) (rest : Bytes) (kind : major = 4 ∨ major = 5) (small : count < 2 ^ 64) :
    compact.next 0 (head major count ++ rest) = none := by
  change readItem? (_ + 1) 0 _ = _
  rcases kind with rfl | rfl
  · rw [readItem?, read_head 4 count rest (by decide) small]
    rfl
  · rw [readItem?, read_head 5 count rest (by decide) small]
    rfl

theorem compact_lawful : compact.Lawful where
  held := encode_held
  text_written s := by
    change encode _ = _
    rw [encode]
  array_written items := by
    change encode _ = _
    rw [encode, encode_items]
    rfl
  map_written members := by
    change encode _ = _
    rw [encode, encode_members]
  scalar_read := compact_scalar_read
  scalar_cut := compact_scalar_cut
  array_read := compact_array_read
  map_read := compact_map_read
  full := compact_full
  head_cut _ major count cut kind _ short := headless (read_head_cut major count cut (by omega) short)
  whole_read bytes item read := by
    change decode? bytes = _
    rw [decode?, show readItem? _ _ _ = _ from read]
  more_refused bytes item byte rest read := by
    change decode? bytes = _
    rw [decode?, show readItem? _ _ _ = _ from read]
  failure_refused bytes read := by
    change decode? bytes = _
    rw [decode?, show readItem? _ _ _ = _ from read]

end Codec

end ShardQuery.Cbor
