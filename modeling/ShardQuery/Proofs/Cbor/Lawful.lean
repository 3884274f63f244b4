import ShardQuery.Cbor.Codec
/-!
What is asked of a codec, and what follows from it. Main statements: plain items of any nesting are read from the front
of any bytes that begin with their written form, while there is room for what they open, and from no part of it. So a
written item is read back as it was, and refused when it is cut, when anything follows it or when it nests too deeply.
-/

set_option autoImplicit false

namespace ShardQuery.Cbor

namespace Item

mutual
-- Numbers of 64 bits, texts, truth values and nulls, in arrays and maps.
def Plain : Item → Prop
  | .natural n => n < 2 ^ 64
  | .negative n => n < 2 ^ 64
  | .text _ => True
  | .bool _ => True
  | .null => True
  | .array items => PlainItems items
  | .map members => PlainMembers members
  | _ => False

def PlainItems : List Item → Prop
  | [] => True
  | item :: rest => Plain item ∧ PlainItems rest

def PlainMembers : List (Item × Item) → Prop
  | [] => True
  | (key, item) :: rest => Plain key ∧ Plain item ∧ PlainMembers rest
end

-- A plain item that opens nothing and whose head can tell its size.
def Scalar : Item → Prop
  | .natural n => n < 2 ^ 64
  | .negative n => n < 2 ^ 64
  | .text s => (Text.utf8 s).length < 2 ^ 64
  | .bool _ => True
  | .null => True
  | _ => False

end Item

namespace Codec

-- The written form of a member: its key, its item behind it.
def writeMember (codec : Codec) : Item × Item → Bytes
  | (key, item) => codec.write key ++ codec.write item

-- The format as it is specified, and the limits of its reader: heads tell how many items follow, a head or a scalar
-- that is cut short is not read, no more than `maxDepth` arrays and maps are open at once, and what is read as a whole
-- has nothing behind it.
structure Lawful (codec : Codec) : Prop where
  held : ∀ item, codec.write item ≠ []
  text_written : ∀ s, codec.write (.text s) = head 3 (Text.utf8 s).length ++ Text.utf8 s
  array_written : ∀ items, codec.write (.array items) = head 4 items.length ++ items.flatMap codec.write
  map_written : ∀ members, codec.write (.map members) = head 5 members.length ++ members.flatMap codec.writeMember
  scalar_read : ∀ item room rest, item.Scalar → codec.next room (codec.write item ++ rest) = some (item, rest)
  scalar_cut : ∀ item room cut, item.Scalar → cut < (codec.write item).length →
    codec.next room ((codec.write item).take cut) = none
  array_read : ∀ room count rest, count < 2 ^ 64 → codec.next (room + 1) (head 4 count ++ rest) =
    (codec.nextItems room count rest).map fun (items, rest) => (.array items, rest)
  map_read : ∀ room count rest, count < 2 ^ 64 → codec.next (room + 1) (head 5 count ++ rest) =
    (codec.nextMembers room count rest).map fun (members, rest) => (.map members, rest)
  full : ∀ major count rest, major = 4 ∨ major = 5 → count < 2 ^ 64 → codec.next 0 (head major count ++ rest) = none
  head_cut : ∀ room major count cut, major = 4 ∨ major = 5 → count < 2 ^ 64 → cut < (head major count).length →
    codec.next room ((head major count).take cut) = none
  whole_read : ∀ bytes item, codec.next maxDepth bytes = some (item, []) → codec.read bytes = some item
  more_refused : ∀ bytes item byte rest, codec.next maxDepth bytes = some (item, byte :: rest) → codec.read bytes = none
  failure_refused : ∀ bytes, codec.next maxDepth bytes = none → codec.read bytes = none

namespace Lawful

open Item

variable {codec : Codec} (lawful : codec.Lawful)

section Counted

include lawful

theorem items_counted (items : List Item) : items.length ≤ (items.flatMap codec.write).length := by
  induction items with
  | nil => exact Nat.le_refl _
  | cons item items ih =>
      have front := List.length_pos_iff.mpr (lawful.held item)
      rw [List.flatMap_cons, List.length_cons, List.length_append]
      omega

theorem members_counted (members : List (Item × Item)) : members.length ≤ (members.flatMap codec.writeMember).length := by
  induction members with
  | nil => exact Nat.le_refl _
  | cons member members ih =>
      obtain ⟨key, item⟩ := member
      have front := List.length_pos_iff.mpr (lawful.held key)
      rw [List.flatMap_cons, List.length_cons, List.length_append, writeMember, List.length_append]
      omega

theorem scalar_next (item : Item) (scalar : item.Scalar) (flat : item.depth = 0) (room : Nat) (rest : Bytes) :
    codec.next room (codec.write item ++ rest) = if item.depth ≤ room then some (item, rest) else none := by
  rw [if_pos (flat ▸ Nat.zero_le room), lawful.scalar_read item room rest scalar]

end Counted

mutual
theorem next_written (lawful : codec.Lawful) (item : Item) (room : Nat) (rest : Bytes) (plain : item.Plain)
    (counted : (codec.write item).length < 2 ^ 64) :
    codec.next room (codec.write item ++ rest) = if item.depth ≤ room then some (item, rest) else none := by
  cases item with
  | natural n => exact lawful.scalar_next (.natural n) plain rfl room rest
  | negative n => exact lawful.scalar_next (.negative n) plain rfl room rest
  | text s =>
      rw [lawful.text_written, List.length_append] at counted
      exact lawful.scalar_next (.text s) (Nat.lt_of_le_of_lt (Nat.le_add_left _ _) counted) rfl room rest
  | bool b => exact lawful.scalar_next (.bool b) trivial rfl room rest
  | null => exact lawful.scalar_next .null trivial rfl room rest
  | array items =>
      have listed := lawful.items_counted items
      rw [lawful.array_written, List.length_append] at counted
      rw [lawful.array_written, List.append_assoc, depth]
      cases room with
      | zero => exact lawful.full 4 _ _ (.inl rfl) (by omega)
      | succ room =>
          rw [lawful.array_read room _ _ (by omega), next_items_written lawful items room rest plain (by omega)]
          by_cases nested : depthItems items ≤ room
          · rw [if_pos nested, if_pos (Nat.succ_le_succ nested)]
            rfl
          · rw [if_neg nested, if_neg (mt Nat.le_of_succ_le_succ nested)]
            rfl
  | map members =>
      have listed := lawful.members_counted members
      rw [lawful.map_written, List.length_append] at counted
      rw [lawful.map_written, List.append_assoc, depth]
      cases room with
      | zero => exact lawful.full 5 _ _ (.inr rfl) (by omega)
      | succ room =>
          rw [lawful.map_read room _ _ (by omega), next_members_written lawful members room rest plain (by omega)]
          by_cases nested : depthMembers members ≤ room
          · rw [if_pos nested, if_pos (Nat.succ_le_succ nested)]
            rfl
          · rw [if_neg nested, if_neg (mt Nat.le_of_succ_le_succ nested)]
            rfl
  | bytes | looseMap | tagged | undefined | float => exact plain.elim

theorem next_items_written (lawful : codec.Lawful) (items : List Item) (room : Nat) (rest : Bytes)
    (plain : PlainItems items) (counted : (items.flatMap codec.write).length < 2 ^ 64) :
    codec.nextItems room items.length (items.flatMap codec.write ++ rest) =
      if depthItems items ≤ room then some (items, rest) else none := by
  match items with
  | [] => exact (if_pos (Nat.zero_le room)).symm
  | item :: items =>
      rw [List.flatMap_cons, List.length_append] at counted
      rw [List.flatMap_cons, List.append_assoc, List.length_cons, nextItems, depthItems,
        next_written lawful item room _ plain.1 (by omega)]
      by_cases first : item.depth ≤ room
      · rw [if_pos first, Option.bind_some]
        change (codec.nextItems _ _ _).map _ = _
        rw [next_items_written lawful items room rest plain.2 (by omega)]
        by_cases later : depthItems items ≤ room
        · rw [if_pos later, if_pos (Nat.max_le.mpr ⟨first, later⟩)]
          rfl
        · rw [if_neg later, if_neg fun both => later (Nat.max_le.mp both).2]
          rfl
      · rw [if_neg first, if_neg fun both => first (Nat.max_le.mp both).1]
        rfl

theorem next_members_written (lawful : codec.Lawful) (members : List (Item × Item)) (room : Nat) (rest : Bytes)
    (plain : PlainMembers members) (counted : (members.flatMap codec.writeMember).length < 2 ^ 64) :
    codec.nextMembers room members.length (members.flatMap codec.writeMember ++ rest) =
      if depthMembers members ≤ room then some (members, rest) else none := by
  match members with
  | [] => exact (if_pos (Nat.zero_le room)).symm
  | (key, item) :: members =>
      rw [List.flatMap_cons, writeMember, List.length_append, List.length_append] at counted
      rw [List.flatMap_cons, writeMember, List.append_assoc, List.append_assoc, List.length_cons, nextMembers, depthMembers,
        next_written lawful key room _ plain.1 (by omega)]
      by_cases named : key.depth ≤ room
      · rw [if_pos named, Option.bind_some]
        change (codec.next _ _).bind _ = _
        rw [next_written lawful item room _ plain.2.1 (by omega)]
        by_cases first : item.depth ≤ room
        · rw [if_pos first, Option.bind_some]
          change (codec.nextMembers _ _ _).map _ = _
          rw [next_members_written lawful members room rest plain.2.2 (by omega)]
          by_cases later : depthMembers members ≤ room
          · rw [if_pos later, if_pos (Nat.max_le.mpr ⟨Nat.max_le.mpr ⟨named, first⟩, later⟩)]
            rfl
          · rw [if_neg later, if_neg fun all => later (Nat.max_le.mp all).2]
            rfl
        · rw [if_neg first, if_neg fun all => first (Nat.max_le.mp (Nat.max_le.mp all).1).2]
          rfl
      · rw [if_neg named, if_neg fun all => named (Nat.max_le.mp (Nat.max_le.mp all).1).1]
        rfl
end

section Cut

include lawful

-- What a codec reads of bytes that begin with a written item.
theorem next_of_written {item : Item} {room : Nat} {bytes : Bytes} {found : Item × Bytes} (plain : item.Plain)
    (counted : (codec.write item).length < 2 ^ 64) (read : codec.next room (codec.write item ++ bytes) = some found) :
    found = (item, bytes) := by
  rw [lawful.next_written item room bytes plain counted] at read
  split at read
  · exact (Option.some.inj read).symm
  · cases read

-- A cut within the head leaves no head; a cut behind it leaves a cut list.
theorem opened_cut {room major count cut : Nat} {content : Bytes} (kind : major = 4 ∨ major = 5) (counted : count < 2 ^ 64)
    (behind : (head major count).length ≤ cut →
      codec.next room (head major count ++ content.take (cut - (head major count).length)) = none) :
    codec.next room ((head major count ++ content).take cut) = none := by
  by_cases within : cut < (head major count).length
  · rw [List.take_append_of_le_length (Nat.le_of_lt within)]
    exact lawful.head_cut room major count cut kind counted within
  · rw [List.take_append, List.take_of_length_le (Nat.le_of_not_lt within)]
    exact behind (Nat.le_of_not_lt within)

end Cut

mutual
theorem next_cut (lawful : codec.Lawful) (item : Item) (room cut : Nat) (plain : item.Plain)
    (counted : (codec.write item).length < 2 ^ 64) (short : cut < (codec.write item).length) :
    codec.next room ((codec.write item).take cut) = none := by
  cases item with
  | natural n => exact lawful.scalar_cut _ room cut plain short
  | negative n => exact lawful.scalar_cut _ room cut plain short
  | text s =>
      rw [lawful.text_written, List.length_append] at counted
      exact lawful.scalar_cut (.text s) room cut (Nat.lt_of_le_of_lt (Nat.le_add_left _ _) counted) short
  | bool b => exact lawful.scalar_cut _ room cut trivial short
  | null => exact lawful.scalar_cut _ room cut trivial short
  | array items =>
      have listed := lawful.items_counted items
      rw [lawful.array_written, List.length_append] at counted short
      rw [lawful.array_written]
      apply lawful.opened_cut (.inl rfl) (by omega)
      intro behind
      cases room with
      | zero => exact lawful.full 4 _ _ (.inl rfl) (by omega)
      | succ room =>
          rw [lawful.array_read room _ _ (by omega), next_items_cut lawful items room _ plain (by omega) (by omega)]
          rfl
  | map members =>
      have listed := lawful.members_counted members
      rw [lawful.map_written, List.length_append] at counted short
      rw [lawful.map_written]
      apply lawful.opened_cut (.inr rfl) (by omega)
      intro behind
      cases room with
      | zero => exact lawful.full 5 _ _ (.inr rfl) (by omega)
      | succ room =>
          rw [lawful.map_read room _ _ (by omega), next_members_cut lawful members room _ plain (by omega) (by omega)]
          rfl
  | bytes | looseMap | tagged | undefined | float => exact plain.elim

theorem next_items_cut (lawful : codec.Lawful) (items : List Item) (room cut : Nat) (plain : PlainItems items)
    (counted : (items.flatMap codec.write).length < 2 ^ 64) (short : cut < (items.flatMap codec.write).length) :
    codec.nextItems room items.length ((items.flatMap codec.write).take cut) = none := by
  match items with
  | [] => exact absurd short (Nat.not_lt_zero _)
  | item :: items =>
      rw [List.flatMap_cons, List.length_append] at counted short
      rw [List.flatMap_cons, List.length_cons, nextItems]
      by_cases within : cut < (codec.write item).length
      · rw [List.take_append_of_le_length (Nat.le_of_lt within), next_cut lawful item room cut plain.1 (by omega) within]
        rfl
      · rw [List.take_append, List.take_of_length_le (Nat.le_of_not_lt within)]
        apply Option.bind_eq_none_iff.mpr
        intro found read
        rw [lawful.next_of_written plain.1 (by omega) read]
        change (codec.nextItems _ _ _).map _ = _
        rw [next_items_cut lawful items room _ plain.2 (by omega) (by omega)]
        rfl

theorem next_members_cut (lawful : codec.Lawful) (members : List (Item × Item)) (room cut : Nat)
    (plain : PlainMembers members) (counted : (members.flatMap codec.writeMember).length < 2 ^ 64)
    (short : cut < (members.flatMap codec.writeMember).length) :
    codec.nextMembers room members.length ((members.flatMap codec.writeMember).take cut) = none := by
  match members with
  | [] => exact absurd short (Nat.not_lt_zero _)
  | (key, item) :: members =>
      rw [List.flatMap_cons, writeMember, List.length_append, List.length_append] at counted short
      rw [List.flatMap_cons, writeMember, List.append_assoc, List.length_cons, nextMembers]
      by_cases within : cut < (codec.write key).length
      · rw [List.take_append_of_le_length (Nat.le_of_lt within), next_cut lawful key room cut plain.1 (by omega) within]
        rfl
      · rw [List.take_append, List.take_of_length_le (Nat.le_of_not_lt within)]
        apply Option.bind_eq_none_iff.mpr
        intro found read
        rw [lawful.next_of_written plain.1 (by omega) read]
        change (codec.next _ _).bind _ = _
        by_cases inside : cut - (codec.write key).length < (codec.write item).length
        · rw [List.take_append_of_le_length (Nat.le_of_lt inside), next_cut lawful item room _ plain.2.1 (by omega) inside]
          rfl
        · rw [List.take_append, List.take_of_length_le (Nat.le_of_not_lt inside)]
          apply Option.bind_eq_none_iff.mpr
          intro found read
          rw [lawful.next_of_written plain.2.1 (by omega) read]
          change (codec.nextMembers _ _ _).map _ = _
          rw [next_members_cut lawful members room _ plain.2.2 (by omega) (by omega)]
          rfl
end

section Whole

variable {item : Item} (plain : item.Plain) (counted : (codec.write item).length < 2 ^ 64)

include lawful plain counted

theorem next_nested (nested : item.depth ≤ maxDepth) (more : Bytes) :
    codec.next maxDepth (codec.write item ++ more) = some (item, more) := by
  rw [lawful.next_written item maxDepth more plain counted, if_pos nested]

theorem read_written (nested : item.depth ≤ maxDepth) : codec.read (codec.write item) = some item := by
  have read := lawful.next_nested plain counted nested []
  rw [List.append_nil] at read
  exact lawful.whole_read _ _ read

theorem read_cut {cut : Nat} (short : cut < (codec.write item).length) : codec.read ((codec.write item).take cut) = none :=
  lawful.failure_refused _ (lawful.next_cut item maxDepth cut plain counted short)

theorem read_followed (nested : item.depth ≤ maxDepth) {more : Bytes} (followed : more ≠ []) :
    codec.read (codec.write item ++ more) = none := by
  obtain ⟨byte, rest, rfl⟩ := List.exists_cons_of_ne_nil followed
  exact lawful.more_refused _ item byte rest (lawful.next_nested plain counted nested _)

theorem read_deep (deep : maxDepth < item.depth) : codec.read (codec.write item) = none := by
  have read := lawful.next_written item maxDepth [] plain counted
  rw [List.append_nil, if_neg (Nat.not_le_of_lt deep)] at read
  exact lawful.failure_refused _ read

end Whole

end Lawful

end Codec

end ShardQuery.Cbor
