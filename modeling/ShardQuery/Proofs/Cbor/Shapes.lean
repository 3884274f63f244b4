import Mathlib.Data.List.Basic
import ShardQuery.Proofs.Cbor.Lawful
/-!
The shapes of typed data. Main statements: each shape is read back from what was written for it, and its items stay
within the numbers and the nesting that a reader takes.
-/

set_option autoImplicit false

namespace ShardQuery.Cbor

namespace Item

section Plain

theorem plain_items (items : List Item) (each : ∀ item ∈ items, item.Plain) : PlainItems items := by
  induction items with
  | nil => trivial
  | cons item items ih =>
      exact ⟨each item List.mem_cons_self, ih fun other member => each other (List.mem_cons_of_mem _ member)⟩

theorem plain_list {α : Type} (write : α → Item) (list : List α) (each : ∀ a ∈ list, (write a).Plain) :
    (ofList write list).Plain := by
  apply plain_items
  intro item member
  obtain ⟨a, among, rfl⟩ := List.mem_map.mp member
  exact each a among

theorem plain_option {α : Type} (write : α → Item) (part : Option α) (each : ∀ a ∈ part, (write a).Plain) :
    (ofOption write part).Plain := by
  cases part with
  | none => trivial
  | some a => exact each a rfl

theorem plain_word (w : UInt64) : (ofWord w).Plain := w.toNat_lt

end Plain

theorem nested_items (items : List Item) (room : Nat) (each : ∀ item ∈ items, item.depth ≤ room) :
    depthItems items ≤ room := by
  induction items with
  | nil => exact Nat.zero_le _
  | cons item items ih =>
      exact Nat.max_le.mpr
        ⟨each item List.mem_cons_self, ih fun other member => each other (List.mem_cons_of_mem _ member)⟩

-- What a reader takes: plain items with no more than so many maps and arrays open at once.
structure Readable (room : Nat) (item : Item) : Prop where
  plain : item.Plain
  nested : item.depth ≤ room

theorem readable_list {α : Type} (write : α → Item) (list : List α) (room : Nat)
    (each : ∀ a ∈ list, (write a).Readable room) : (ofList write list).Readable (room + 1) := by
  refine ⟨plain_list write list fun a member => (each a member).plain, Nat.succ_le_succ (nested_items _ room ?_)⟩
  intro item member
  obtain ⟨a, among, rfl⟩ := List.mem_map.mp member
  exact (each a among).nested

theorem readable_natural (n room : Nat) (small : n < 2 ^ 64) : (natural n).Readable room := ⟨small, Nat.zero_le _⟩

theorem readable_word (w : UInt64) (room : Nat) : (ofWord w).Readable room := readable_natural _ room w.toNat_lt

theorem readable_text (s : String) (room : Nat) : (text s).Readable room := ⟨trivial, Nat.zero_le _⟩

theorem readable_bool (b : Bool) (room : Nat) : (bool b).Readable room := ⟨trivial, Nat.zero_le _⟩

theorem readable_signed (w : Int64) (room : Nat) : (ofSigned w).Readable room := by
  have low := w.le_toInt
  have high := w.toInt_lt
  rw [ofSigned, ofInt]
  split
  · exact readable_natural _ room (by omega)
  · refine ⟨?_, Nat.zero_le _⟩
    change (-1 - w.toInt).toNat < 2 ^ 64
    omega

end Item

theorem mapM_some {α β : Type} (list : List α) (read : α → Option β) (result : α → β)
    (each : ∀ a ∈ list, read a = some (result a)) : list.mapM read = some (list.map result) := by
  induction list with
  | nil => rfl
  | cons a list ih =>
      have rest := ih fun other member => each other (List.mem_cons_of_mem _ member)
      rw [List.mapM_cons, each a List.mem_cons_self, rest]
      rfl

namespace Forms

-- The representation as it is specified: a structure is a map from the names of its fields, a variant its name or the
-- one-member map from its name, and each is read back from what is written for it. A part that may be left out is there
-- unless a null stands for it.
structure Lawful (forms : Forms) : Prop where
  fields_written : ∀ fields, forms.fields fields = .ofFields fields
  bare_written : ∀ name, forms.bare name = .text name
  variant_written : ∀ name content, forms.variant name content = .variant name content
  fields_read : ∀ names items, names.Nodup → names.length = items.length →
    forms.fields? names (forms.fields (names.zip items)) = some (items.map some)
  bare_read : ∀ names name, name ∈ names → forms.variant? names (forms.bare name) = some (names.idxOf name, none)
  variant_read : ∀ names name content, name ∈ names →
    forms.variant? names (forms.variant name content) = some (names.idxOf name, some content)
  natural_read : ∀ bound n, n < bound → forms.natural? bound (.natural n) = some n
  signed_read : ∀ w, forms.signed? (.ofSigned w) = some w
  bool_read : ∀ b, forms.bool? (.bool b) = some b
  text_read : ∀ s, forms.text? (.text s) = some s
  items_read : ∀ items, forms.items? (.array items) = some items
  members_read : ∀ members, forms.members? (.map members) = some members
  null_read : forms.unit? .null = some ()
  part_left_out : forms.part? .null = none
  part_there : ∀ item, item ≠ .null → forms.part? item = some item

namespace Lawful

open Item

variable {forms : Forms} (lawful : forms.Lawful)

include lawful

section Plain

theorem plain_fields (fields : List (String × Item)) (each : fields.Forall fun field => field.2.Plain) :
    (forms.fields fields).Plain := by
  rw [lawful.fields_written]
  change PlainMembers (fields.map fun field => (.text field.1, field.2))
  induction fields with
  | nil => trivial
  | cons field fields ih =>
      obtain ⟨first, others⟩ := (List.forall_cons _ _ _).mp each
      exact ⟨trivial, first, ih others⟩

theorem plain_bare (name : String) : (forms.bare name).Plain := by
  rw [lawful.bare_written]
  trivial

theorem plain_variant (name : String) (content : Item) (plain : content.Plain) : (forms.variant name content).Plain := by
  rw [lawful.variant_written]
  exact ⟨trivial, plain, trivial⟩

theorem plain_variant_fields (name : String) (fields : List (String × Item))
    (each : fields.Forall fun field => field.2.Plain) : (forms.variant name (forms.fields fields)).Plain :=
  lawful.plain_variant name _ (lawful.plain_fields fields each)

end Plain

section Nested

theorem nested_fields (fields : List (String × Item)) (room : Nat)
    (each : fields.Forall fun field => field.2.depth ≤ room) : (forms.fields fields).depth ≤ room + 1 := by
  rw [lawful.fields_written]
  apply Nat.succ_le_succ
  induction fields with
  | nil => exact Nat.zero_le _
  | cons field fields ih =>
      obtain ⟨first, others⟩ := (List.forall_cons _ _ _).mp each
      exact Nat.max_le.mpr ⟨Nat.max_le.mpr ⟨Nat.zero_le _, first⟩, ih others⟩

theorem depth_variant (name : String) (content : Item) : (forms.variant name content).depth = content.depth + 1 := by
  rw [lawful.variant_written]
  change max (max 0 content.depth) 0 + 1 = _
  omega

theorem depth_field_lt (fields : List (String × Item)) (field : String × Item) (member : field ∈ fields) :
    field.2.depth < (forms.fields fields).depth := by
  rw [lawful.fields_written]
  apply Nat.lt_succ_of_le
  induction fields with
  | nil => cases member
  | cons other fields ih =>
      rw [List.map_cons, depthMembers]
      rcases List.mem_cons.mp member with rfl | later
      · omega
      · have within := ih later
        omega

-- Fuel for each level of a variant is fuel for each level of its parts.
theorem part_fueled (name label : String) (parts : List (String × Item)) (part : Item) (fuel : Nat)
    (member : (label, part) ∈ parts) (fueled : (forms.variant name (forms.fields parts)).depth < fuel + 1) :
    part.depth < fuel := by
  have inner := lawful.depth_field_lt parts (label, part) member
  rw [lawful.depth_variant] at fueled
  exact Nat.lt_trans inner (Nat.lt_of_succ_lt_succ fueled)

end Nested

theorem readable_fields (fields : List (String × Item)) (room : Nat)
    (each : fields.Forall fun field => field.2.Readable room) : (forms.fields fields).Readable (room + 1) :=
  ⟨lawful.plain_fields fields (each.imp fun _ readable => readable.plain),
    lawful.nested_fields fields room (each.imp fun _ readable => readable.nested)⟩

theorem readable_variant (name : String) (content : Item) (room : Nat) (readable : content.Readable room) :
    (forms.variant name content).Readable (room + 1) := by
  refine ⟨lawful.plain_variant name content readable.plain, ?_⟩
  rw [lawful.depth_variant]
  exact Nat.succ_le_succ readable.nested

section Read

theorem bare_at (names : List String) (name : String) (i : Nat) (place : names.idxOf name = i) (known : i < names.length) :
    forms.variant? names (forms.bare name) = some (i, none) := by
  rw [lawful.bare_read names name (List.idxOf_lt_length_iff.mp (place ▸ known)), place]

theorem variant_at (names : List String) (name : String) (content : Item) (i : Nat) (place : names.idxOf name = i)
    (known : i < names.length) : forms.variant? names (forms.variant name content) = some (i, some content) := by
  rw [lawful.variant_read names name content (List.idxOf_lt_length_iff.mp (place ▸ known)), place]

theorem word_of_word (w : UInt64) : forms.word? (ofWord w) = some w := by
  rw [word?, ofWord, lawful.natural_read _ _ w.toNat_lt, Option.map_some, UInt64.ofNat_toNat]

theorem byte_of_byte (b : UInt8) : forms.byte? (natural b.toNat) = some b := by
  rw [byte?, lawful.natural_read _ _ b.toNat_lt, Option.map_some, UInt8.ofNat_toNat]

theorem list_of_list {α : Type} (write : α → Item) (read : Item → Option α) (list : List α)
    (each : ∀ a ∈ list, read (write a) = some a) : forms.list? read (ofList write list) = some list := by
  rw [list?, ofList, lawful.items_read, Option.bind_some, List.mapM_map, mapM_some list (read ∘ write) id each, List.map_id]

theorem texts_of_texts (texts : List String) : forms.list? forms.text? (ofList .text texts) = some texts :=
  lawful.list_of_list .text forms.text? texts fun s _ => lawful.text_read s

theorem optional_of_option {α : Type} (write : α → Item) (read : Item → Option α) (part : Option α)
    (there : ∀ a, write a ≠ .null) (each : ∀ a ∈ part, read (write a) = some a) :
    forms.optional? read (ofOption write part) = some part := by
  cases part with
  | none => rw [ofOption, optional?, lawful.part_left_out]
  | some a =>
      rw [ofOption, optional?, lawful.part_there _ (there a)]
      exact congrArg (Option.map some) (each a rfl)

theorem text_of_option (part : Option String) : forms.optional? forms.text? (ofOption .text part) = some part :=
  lawful.optional_of_option .text forms.text? part nofun fun s _ => lawful.text_read s

end Read

end Lawful

end Forms

namespace Item

theorem signed_of_signed (w : Int64) : signed? (ofSigned w) = some w := by
  have low := w.le_toInt
  have high := w.toInt_lt
  rw [ofSigned, ofInt]
  by_cases positive : 0 ≤ w.toInt
  · rw [if_pos positive]
    change (if w.toInt.toNat < 2 ^ 63 then some (Int64.ofInt w.toInt.toNat) else none) = _
    rw [if_pos (by omega), Int.toNat_of_nonneg positive, Int64.ofInt_toInt]
  · rw [if_neg positive]
    change (if (-1 - w.toInt).toNat < 2 ^ 63 then some (Int64.ofInt (-1 - (-1 - w.toInt).toNat)) else none) = _
    rw [if_pos (by omega), Int.toNat_of_nonneg (by omega), show -1 - (-1 - w.toInt) = w.toInt by omega, Int64.ofInt_toInt]

-- Keys that are the names in their order are the positions counted up.
theorem positions_of_names (names : List String) (items : List Item) (distinct : names.Nodup)
    (matched : names.length = items.length) :
    (names.zip items).map (fun field => (names.idxOf field.1, field.2)) = (List.range names.length).zip items := by
  apply List.ext_getElem
  · rw [List.length_map, List.length_zip, List.length_zip, List.length_range]
  · intro i inside inside'
    rw [List.length_map, List.length_zip] at inside
    rw [List.getElem_map, List.getElem_zip, List.getElem_zip, List.getElem_range,
      distinct.idxOf_getElem i (by omega)]

theorem erase_dups_nodup (numbers : List Nat) (distinct : numbers.Nodup) : numbers.eraseDups = numbers := by
  induction numbers with
  | nil => rfl
  | cons n numbers ih =>
      obtain ⟨new, distinct⟩ := List.nodup_cons.mp distinct
      have kept : numbers.filter (fun m => !m == n) = numbers := by
        apply List.filter_eq_self.mpr
        intro m member
        simpa using fun same : m = n => new (same ▸ member)
      rw [List.eraseDups_cons, kept, ih distinct]

theorem find_ranked (items : List Item) (i : Nat) (inside : i < items.length) :
    ((List.range items.length).zip items).find? (·.1 == i) = some (i, items[i]) := by
  rw [List.find?_eq_some_iff_getElem]
  refine ⟨beq_self_eq_true i, i, by simpa using inside, by simp, ?_⟩
  intro j before
  simp [Nat.ne_of_lt before]

theorem arrange_of_fields (names : List String) (items : List Item) (distinct : names.Nodup)
    (matched : names.length = items.length) :
    arrange? names ((names.zip items).map fun field => (.text field.1, field.2)) = some (items.map some) := by
  have found : ((names.zip items).map fun field => ((.text field.1 : Item), field.2)).mapM
      (fun member => (position? names member.1).map (·, member.2)) = some ((List.range names.length).zip items) := by
    rw [← positions_of_names names items distinct matched, List.mapM_map]
    exact mapM_some (names.zip items) _ (fun field => (names.idxOf field.1, field.2)) fun _ _ => rfl
  have known : ((List.range names.length).zip items).filter (fun entry => entry.1 < names.length) =
      (List.range names.length).zip items := by
    apply List.filter_eq_self.mpr
    intro entry member
    exact decide_eq_true (List.mem_range.mp (List.of_mem_zip member).1)
  have keys : ((List.range names.length).zip items).map (·.1) = List.range names.length :=
    List.map_fst_zip (Nat.le_of_eq (List.length_range.trans matched))
  rw [arrange?, found]
  change (if ((((List.range names.length).zip items).filter _).map _).eraseDups.length < _ then none else some _) = _
  rw [known, keys, erase_dups_nodup _ List.nodup_range, if_neg (by simp [matched])]
  refine congrArg some (List.ext_getElem (by simp [matched]) ?_)
  intro i inside inside'
  rw [List.getElem_map, List.getElem_range, List.getElem_map, matched, find_ranked items i (by simpa using inside')]
  rfl

end Item

theorem Forms.derived_lawful : Forms.derived.Lawful where
  fields_written _ := rfl
  bare_written _ := rfl
  variant_written _ _ := rfl
  fields_read := Item.arrange_of_fields
  bare_read _ _ _ := rfl
  variant_read _ _ _ _ := rfl
  natural_read _ _ small := if_pos small
  signed_read := Item.signed_of_signed
  bool_read _ := rfl
  text_read _ := rfl
  items_read _ := rfl
  members_read _ := rfl
  null_read := rfl
  part_left_out := rfl
  part_there item there := by
    cases item with
    | null => exact absurd rfl there
    | _ => rfl

end ShardQuery.Cbor
