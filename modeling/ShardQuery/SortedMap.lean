/-!
Finite maps as lists in ascending key order. Main statements: what each operation does to `get?`, and
that two maps with the same look-ups are equal.
-/

set_option autoImplicit false

namespace ShardQuery

structure SortedMap (κ ν : Type) [Ord κ] where
  entries : List (κ × ν)
  sorted : entries.Pairwise fun a b => compare a.1 b.1 = .lt

namespace SortedMap

variable {κ ν : Type} [Ord κ]

def insertEntry (key : κ) (item : ν) : List (κ × ν) → List (κ × ν)
  | [] => [(key, item)]
  | head :: tail =>
      match compare key head.1 with
      | .lt => (key, item) :: head :: tail
      | .eq => (key, item) :: tail
      | .gt => head :: insertEntry key item tail

theorem mem_insertEntry (key : κ) (item : ν) (list : List (κ × ν)) (entry : κ × ν)
    (member : entry ∈ insertEntry key item list) : entry = (key, item) ∨ entry ∈ list := by
  induction list with
  | nil => exact .inl (by simpa [insertEntry] using member)
  | cons head tail ih =>
      simp only [insertEntry] at member
      split at member
      · rcases List.mem_cons.mp member with same | rest
        · exact .inl same
        · exact .inr rest
      · rcases List.mem_cons.mp member with same | rest
        · exact .inl same
        · exact .inr (List.mem_cons_of_mem _ rest)
      · rcases List.mem_cons.mp member with same | rest
        · exact .inr (same ▸ List.mem_cons_self)
        · exact (ih rest).imp id (List.mem_cons_of_mem _)

theorem insertEntry_sorted [Std.TransOrd κ] (key : κ) (item : ν) (list : List (κ × ν))
    (sorted : list.Pairwise fun a b => compare a.1 b.1 = .lt) :
    (insertEntry key item list).Pairwise fun a b => compare a.1 b.1 = .lt := by
  induction list with
  | nil => simp [insertEntry]
  | cons head tail ih =>
      have ⟨below, rest⟩ := List.pairwise_cons.mp sorted
      simp only [insertEntry]
      split
      · rename_i less
        refine List.pairwise_cons.mpr ⟨fun entry member => ?_, sorted⟩
        rcases List.mem_cons.mp member with same | later
        · exact same ▸ less
        · exact Std.TransCmp.lt_trans less (below entry later)
      · rename_i same
        refine List.pairwise_cons.mpr ⟨fun entry member => ?_, rest⟩
        exact (Std.TransCmp.congr_left same).trans (below entry member)
      · rename_i greater
        refine List.pairwise_cons.mpr ⟨fun entry member => ?_, ih rest⟩
        rcases mem_insertEntry key item tail entry member with same | later
        · exact same ▸ Std.OrientedCmp.gt_iff_lt.mp greater
        · exact below entry later

def empty : SortedMap κ ν := ⟨[], .nil⟩

instance : Inhabited (SortedMap κ ν) := ⟨empty⟩

instance [BEq κ] [BEq ν] : BEq (SortedMap κ ν) := ⟨fun a b => a.entries == b.entries⟩

def get? (map : SortedMap κ ν) (key : κ) : Option ν :=
  (map.entries.find? fun entry => compare entry.1 key == .eq).map (·.2)

def contains (map : SortedMap κ ν) (key : κ) : Bool := (map.get? key).isSome

def insert [Std.TransOrd κ] (map : SortedMap κ ν) (key : κ) (item : ν) : SortedMap κ ν :=
  ⟨insertEntry key item map.entries, insertEntry_sorted key item map.entries map.sorted⟩

def filter (map : SortedMap κ ν) (keep : κ → ν → Bool) : SortedMap κ ν :=
  ⟨map.entries.filter fun entry => keep entry.1 entry.2, map.sorted.filter _⟩

def erase (map : SortedMap κ ν) (key : κ) : SortedMap κ ν :=
  map.filter fun other _ => compare other key != .eq

def mapItems {ω : Type} (map : SortedMap κ ν) (change : κ → ν → ω) : SortedMap κ ω :=
  ⟨map.entries.map fun entry => (entry.1, change entry.1 entry.2), by
    rw [List.pairwise_map]
    exact map.sorted⟩

def ofList [Std.TransOrd κ] (list : List (κ × ν)) : SortedMap κ ν :=
  list.foldl (fun map entry => map.insert entry.1 entry.2) empty

def keys (map : SortedMap κ ν) : List κ := map.entries.map (·.1)

def items (map : SortedMap κ ν) : List ν := map.entries.map (·.2)

def size (map : SortedMap κ ν) : Nat := map.entries.length

def isEmpty (map : SortedMap κ ν) : Bool := map.entries.isEmpty

theorem get?_empty (key : κ) : (empty : SortedMap κ ν).get? key = none := rfl

theorem erase_empty (key : κ) : (empty : SortedMap κ ν).erase key = empty := rfl

theorem isEmpty_iff (map : SortedMap κ ν) : map.isEmpty = true ↔ map = empty := by
  constructor
  · intro none
    have listed : map.entries = [] := List.isEmpty_iff.mp none
    cases map
    congr
  · rintro rfl
    rfl

theorem size_insert_le [Std.TransOrd κ] (map : SortedMap κ ν) (key : κ) (item : ν) :
    (map.insert key item).size ≤ map.size + 1 := by
  show (insertEntry key item map.entries).length ≤ map.entries.length + 1
  induction map.entries with
  | nil => exact Nat.le_refl _
  | cons head tail ih =>
      simp only [insertEntry]
      split
      · exact Nat.le_refl _
      · simp
      · simpa using ih

theorem length_insertEntry_held [Std.TransOrd κ] (key : κ) (item old : ν) (list : List (κ × ν))
    (sorted : list.Pairwise fun a b => compare a.1 b.1 = .lt) (held : (key, old) ∈ list) :
    (insertEntry key item list).length = list.length := by
  induction list with
  | nil => simp at held
  | cons head tail ih =>
      have ⟨below, rest⟩ := List.pairwise_cons.mp sorted
      simp only [insertEntry]
      rcases List.mem_cons.mp held with first | later
      · simp [← first]
      · have greater := Std.OrientedCmp.gt_of_lt (below _ later)
        simp [greater, ih rest later]

theorem insertEntry_last (key : κ) (item : ν) (list : List (κ × ν))
    (greater : ∀ entry ∈ list, compare key entry.1 = .gt) : insertEntry key item list = list ++ [(key, item)] := by
  induction list with
  | nil => rfl
  | cons head tail ih =>
      simp only [insertEntry, greater head List.mem_cons_self]
      rw [ih fun entry member => greater entry (List.mem_cons_of_mem _ member), List.cons_append]

theorem inserted_in_order [Std.TransOrd κ] (list : List (κ × ν)) (map : SortedMap κ ν)
    (sorted : (map.entries ++ list).Pairwise fun a b => compare a.1 b.1 = .lt) :
    (list.foldl (fun map entry => map.insert entry.1 entry.2) map).entries = map.entries ++ list := by
  induction list generalizing map with
  | nil => exact (List.append_nil _).symm
  | cons entry list ih =>
      have last : (map.insert entry.1 entry.2).entries = map.entries ++ [entry] := by
        refine insertEntry_last _ _ _ fun other member => Std.OrientedCmp.gt_of_lt ?_
        exact (List.pairwise_append.mp sorted).2.2 other member entry List.mem_cons_self
      have grown : map.entries ++ entry :: list = (map.insert entry.1 entry.2).entries ++ list := by
        rw [last, List.append_assoc, List.singleton_append]
      rw [List.foldl_cons, grown]
      exact ih _ (grown ▸ sorted)

theorem ofList_entries [Std.TransOrd κ] (map : SortedMap κ ν) : ofList map.entries = map := by
  have listed := inserted_in_order map.entries empty map.sorted
  change (ofList map.entries).entries = map.entries at listed
  generalize ofList map.entries = copy at listed
  cases copy
  cases map
  congr

variable [Std.LawfulEqOrd κ]

theorem get?_eq_some (map : SortedMap κ ν) (key : κ) (item : ν) :
    map.get? key = some item ↔ (key, item) ∈ map.entries := by
  constructor
  · intro found
    obtain ⟨entry, hit, rfl⟩ := Option.map_eq_some_iff.mp found
    have same : entry.1 = key := by simpa using List.find?_some hit
    rw [← same]
    exact List.mem_of_find?_eq_some hit
  · intro member
    have first : map.entries.find? (fun entry => compare entry.1 key == .eq) = some (key, item) := by
      obtain ⟨before, after, split⟩ := List.append_of_mem member
      have sorted := split ▸ map.sorted
      rw [split, List.find?_append, List.find?_eq_none.mpr, Option.none_or, List.find?_cons_of_pos (by simp)]
      intro earlier among hit
      have less := (List.pairwise_append.mp sorted).2.2 earlier among (key, item) List.mem_cons_self
      simp [less] at hit
    rw [get?, first]
    rfl

theorem get?_insert_same [Std.TransOrd κ] (map : SortedMap κ ν) (key : κ) (item : ν) :
    (map.insert key item).get? key = some item := by
  rw [get?_eq_some]
  show (key, item) ∈ insertEntry key item map.entries
  induction map.entries with
  | nil => exact List.mem_singleton.mpr rfl
  | cons head tail ih =>
      simp only [insertEntry]
      split
      · exact List.mem_cons_self
      · exact List.mem_cons_self
      · exact List.mem_cons_of_mem _ ih

theorem find_insertEntry_other (key other : κ) (item : ν) (list : List (κ × ν)) (different : other ≠ key) :
    (insertEntry key item list).find? (fun entry => compare entry.1 other == .eq) =
      list.find? fun entry => compare entry.1 other == .eq := by
  have skip : (compare key other == .eq) = false := by simpa using different.symm
  induction list with
  | nil => simp [insertEntry, different.symm]
  | cons head tail ih =>
      simp only [insertEntry]
      split
      · rw [List.find?_cons, skip]
      · rename_i same
        rw [List.find?_cons, skip, List.find?_cons, ← Std.LawfulEqCmp.eq_of_compare same, skip]
      · rw [List.find?_cons, List.find?_cons, ih]

theorem get?_insert_other [Std.TransOrd κ] (map : SortedMap κ ν) (key other : κ) (item : ν)
    (different : other ≠ key) : (map.insert key item).get? other = map.get? other :=
  congrArg (Option.map Prod.snd) (find_insertEntry_other key other item map.entries different)

theorem get?_insert [Std.TransOrd κ] [DecidableEq κ] (map : SortedMap κ ν) (key other : κ) (item : ν) :
    (map.insert key item).get? other = if other = key then some item else map.get? other := by
  by_cases same : other = key
  · rw [if_pos same, same, get?_insert_same]
  · rw [if_neg same, get?_insert_other map key other item same]

theorem get?_filter (map : SortedMap κ ν) (keep : κ → ν → Bool) (key : κ) :
    (map.filter keep).get? key = (map.get? key).filter (keep key) := by
  apply Option.ext
  intro item
  rw [get?_eq_some, Option.filter_eq_some_iff, get?_eq_some]
  exact List.mem_filter

theorem get?_erase [DecidableEq κ] (map : SortedMap κ ν) (key other : κ) :
    (map.erase key).get? other = if other = key then none else map.get? other := by
  rw [erase, get?_filter]
  by_cases same : other = key
  · cases map.get? other <;> simp [same]
  · cases map.get? other <;> simp [same]

theorem size_insert_held [Std.TransOrd κ] (map : SortedMap κ ν) (key : κ) (item old : ν)
    (held : map.get? key = some old) : (map.insert key item).size = map.size :=
  length_insertEntry_held key item old map.entries map.sorted ((get?_eq_some map key old).mp held)

theorem size_erase_lt (map : SortedMap κ ν) (key : κ) (item : ν) (held : map.get? key = some item) :
    (map.erase key).size < map.size := by
  have member := (get?_eq_some map key item).mp held
  apply List.length_filter_lt_length_iff_exists.mpr
  exact ⟨(key, item), member, by simp⟩

theorem get?_mapItems {ω : Type} (map : SortedMap κ ν) (change : κ → ν → ω) (key : κ) :
    (map.mapItems change).get? key = (map.get? key).map (change key) := by
  apply Option.ext
  intro item
  rw [get?_eq_some, Option.map_eq_some_iff, mapItems, List.mem_map]
  constructor
  · rintro ⟨⟨_, old⟩, member, same⟩
    obtain ⟨rfl, rfl⟩ := Prod.mk.inj same
    exact ⟨old, (get?_eq_some map _ old).mpr member, rfl⟩
  · rintro ⟨old, found, rfl⟩
    exact ⟨(key, old), (get?_eq_some map key old).mp found, rfl⟩

theorem get?_isSome (map : SortedMap κ ν) (key : κ) : (map.get? key).isSome = true ↔ key ∈ map.keys := by
  rw [Option.isSome_iff_exists, keys, List.mem_map]
  constructor
  · rintro ⟨item, found⟩
    exact ⟨(key, item), (get?_eq_some map key item).mp found, rfl⟩
  · rintro ⟨⟨_, item⟩, member, rfl⟩
    exact ⟨item, (get?_eq_some map _ item).mpr member⟩

theorem mem_items (map : SortedMap κ ν) (item : ν) : item ∈ map.items ↔ ∃ key, map.get? key = some item := by
  rw [items, List.mem_map]
  constructor
  · rintro ⟨⟨key, _⟩, member, rfl⟩
    exact ⟨key, (get?_eq_some map key _).mpr member⟩
  · rintro ⟨key, found⟩
    exact ⟨(key, item), (get?_eq_some map key item).mp found, rfl⟩

theorem keys_nodup (map : SortedMap κ ν) : map.keys.Nodup := by
  rw [keys, List.Nodup, List.pairwise_map]
  refine map.sorted.imp ?_
  intro a b less same
  rw [same] at less
  simp at less

-- What only the entry of one key contributes.
theorem flat_map_at {β : Type} (map : SortedMap κ ν) (key : κ) (f : κ × ν → List β)
    (others : ∀ entry ∈ map.entries, entry.1 ≠ key → f entry = []) :
    map.entries.flatMap f = (map.get? key).elim [] fun item => f (key, item) := by
  cases found : map.get? key with
  | none =>
      refine List.flatMap_eq_nil_iff.mpr fun entry member => others entry member ?_
      rintro rfl
      rw [(get?_eq_some map _ _).mpr member] at found
      cases found
  | some item =>
      obtain ⟨before, after, split⟩ := List.append_of_mem ((get?_eq_some map key item).mp found)
      have sorted := split ▸ map.sorted
      obtain ⟨-, later, earlier⟩ := List.pairwise_append.mp sorted
      have none {part : List (κ × ν)} (inside : ∀ entry ∈ part, entry ∈ map.entries ∧ entry.1 ≠ key) :
          part.flatMap f = [] :=
        List.flatMap_eq_nil_iff.mpr fun entry member => others entry (inside entry member).1 (inside entry member).2
      rw [split, List.flatMap_append, List.flatMap_cons, none, none]
      · simp
      · intro entry member
        refine ⟨split ▸ List.mem_append_right _ (List.mem_cons_of_mem _ member), ?_⟩
        rintro rfl
        have less := (List.pairwise_cons.mp later).1 entry member
        simp at less
      · intro entry member
        refine ⟨split ▸ List.mem_append_left _ member, ?_⟩
        rintro rfl
        have less := earlier entry member (entry.1, item) List.mem_cons_self
        simp at less

theorem entries_nodup (map : SortedMap κ ν) : map.entries.Nodup := by
  refine map.sorted.imp ?_
  rintro a b less rfl
  simp at less

theorem ext [Std.TransOrd κ] (a b : SortedMap κ ν) (same : ∀ key, a.get? key = b.get? key) : a = b := by
  have members (entry : κ × ν) : entry ∈ a.entries ↔ entry ∈ b.entries := by
    rw [← get?_eq_some, ← get?_eq_some, same]
  have permuted := (List.perm_ext_iff_of_nodup a.entries_nodup b.entries_nodup).mpr members
  have listed : a.entries = b.entries := by
    apply permuted.eq_of_pairwise _ a.sorted b.sorted
    intro x y _ _ less greater
    have gt := Std.OrientedCmp.gt_of_lt greater
    rw [less] at gt
    cases gt
  cases a
  cases b
  congr

section Algebra

variable [Std.TransOrd κ] [DecidableEq κ]

theorem erase_missing (map : SortedMap κ ν) (key : κ) (missing : map.get? key = none) : map.erase key = map := by
  apply ext
  intro other
  rw [get?_erase]
  split
  · rename_i same
    rw [same, missing]
  · rfl

theorem insert_held (map : SortedMap κ ν) (key : κ) (item : ν) (held : map.get? key = some item) :
    map.insert key item = map := by
  apply ext
  intro other
  rw [get?_insert]
  split
  · rename_i same
    rw [same, held]
  · rfl

theorem erase_comm (map : SortedMap κ ν) (a b : κ) : (map.erase a).erase b = (map.erase b).erase a := by
  apply ext
  intro key
  simp only [get?_erase]
  by_cases first : key = a <;> by_cases second : key = b <;> simp [first, second]

theorem erase_erase (map : SortedMap κ ν) (key : κ) : (map.erase key).erase key = map.erase key := by
  apply ext
  intro other
  rw [get?_erase, get?_erase, ite_eq_right_iff]
  intro same
  rw [if_pos same]

theorem erase_insert (map : SortedMap κ ν) (key : κ) (item : ν) : (map.insert key item).erase key = map.erase key := by
  apply ext
  intro other
  rw [get?_erase, get?_erase, get?_insert]
  by_cases same : other = key <;> simp [same]

theorem insert_erase_comm (map : SortedMap κ ν) (key other : κ) (item : ν) (different : key ≠ other) :
    (map.erase other).insert key item = (map.insert key item).erase other := by
  apply ext
  intro asked
  rw [get?_insert, get?_erase, get?_erase, get?_insert]
  by_cases here : asked = key
  · simp [here, different]
  · simp [here]

end Algebra

end SortedMap

end ShardQuery
