import ShardQuery.Store.Import
/-!
Records under updates. Main statements: what a list of updates makes of each record, that a field can be dropped from
the updates or from the record alike, and that what holds of all that is set holds of what is left.
-/

set_option autoImplicit false

namespace ShardQuery

namespace Record

theorem clear_fields_empty (names : List String) : clearFields .empty names = .empty := by
  induction names with
  | nil => rfl
  | cons name names ih =>
      rw [clearFields, List.foldl_cons]
      split
      · exact ih
      · exact ih

theorem clear_fields_erase (record : Record) (names : List String) (field : String) :
    clearFields (record.erase field) names = (clearFields record names).erase field := by
  induction names generalizing record with
  | nil => rfl
  | cons name names ih =>
      rw [clearFields, clearFields, List.foldl_cons, List.foldl_cons]
      split
      · exact ih record
      · rw [SortedMap.erase_comm]
        exact ih (record.erase (Text.lower name))

theorem set_field_erased (record : Record) (item : String × Value) (field : String) (same : Text.lower item.1 = field) :
    (setField record item).erase field = record.erase field := by
  rw [setField]
  split
  · rfl
  · split
    · rw [same, SortedMap.erase_erase]
    · rw [same, SortedMap.erase_insert]

theorem set_field_other (record : Record) (item : String × Value) (field : String) (other : Text.lower item.1 ≠ field) :
    setField (record.erase field) item = (setField record item).erase field := by
  rw [setField, setField]
  split
  · rfl
  · split
    · exact SortedMap.erase_comm record field _
    · exact SortedMap.insert_erase_comm record _ field item.2 other

theorem set_fields_erase (record : Record) (items : List (String × Value)) (field : String) :
    setFields (record.erase field) (items.filter fun item => Text.lower item.1 != field) =
      (setFields record items).erase field := by
  induction items generalizing record with
  | nil => rfl
  | cons item items ih =>
      rw [setFields, setFields, List.foldl_cons]
      by_cases same : Text.lower item.1 = field
      · rw [List.filter_cons_of_neg (by simp [same]), ← set_field_erased record item field same]
        exact ih (setField record item)
      · rw [List.filter_cons_of_pos (by simp [same]), List.foldl_cons, set_field_other record item field same]
        exact ih (setField record item)

-- The fields of a record after an update, as if a record that is not there had none.
def amend (record : Record) (change : RowUpdate) : Record :=
  setFields (if change.removesRecord then .empty else record.clearFields change.clear) change.set

theorem amend_forget (record : Record) (change : RowUpdate) (field : String) :
    amend (record.erase field) (change.forget field) = (amend record change).erase field := by
  rw [amend, amend, ← set_fields_erase]
  change setFields (if change.removesRecord = true then _ else _) _ = _
  split
  · rw [SortedMap.erase_empty]
    rfl
  · rw [← clear_fields_erase]
    rfl

theorem amend_all_forget (record : Record) (changes : List RowUpdate) (field : String) :
    (changes.map (RowUpdate.forget field)).foldl amend (record.erase field) = (changes.foldl amend record).erase field := by
  induction changes generalizing record with
  | nil => rfl
  | cons change changes ih => rw [List.map_cons, List.foldl_cons, List.foldl_cons, amend_forget, ih]

-- Every field is good with its value.
def Every (good : String → Value → Prop) (record : Record) : Prop :=
  ∀ key v, record.get? key = some v → good key v

section Every

variable {good : String → Value → Prop}

theorem erase_every (record : Record) (key : String) (every : record.Every good) : Every good (record.erase key) := by
  intro other v found
  rw [SortedMap.get?_erase] at found
  split at found
  · cases found
  · exact every other v found

theorem clear_fields_every (names : List String) (record : Record) (every : record.Every good) :
    (record.clearFields names).Every good := by
  induction names generalizing record with
  | nil => exact every
  | cons name names ih =>
      rw [clearFields, List.foldl_cons]
      split
      · exact ih record every
      · exact ih _ (erase_every record _ every)

theorem set_fields_every (items : List (String × Value)) (record : Record) (every : record.Every good)
    (given : ∀ item ∈ items, item.2.isNull = false → good (Text.lower item.1) item.2) :
    (record.setFields items).Every good := by
  induction items generalizing record with
  | nil => exact every
  | cons item items ih =>
      refine ih (record.setField item) ?_ fun other among => given other (List.mem_cons_of_mem _ among)
      rw [setField]
      split
      · exact every
      · split
        · exact erase_every record _ every
        · rename_i present
          intro other v found
          rw [SortedMap.get?_insert] at found
          split at found
          · rename_i same
            rw [same, ← Option.some.inj found]
            exact given item List.mem_cons_self (Bool.eq_false_iff.mpr present)
          · exact every other v found

-- What holds of all that the updates set holds of what they leave.
theorem amend_all_every (changes : List RowUpdate) (record : Record) (every : record.Every good)
    (given : ∀ change ∈ changes, ∀ item ∈ change.set, item.2.isNull = false → good (Text.lower item.1) item.2) :
    (changes.foldl amend record).Every good := by
  induction changes generalizing record with
  | nil => exact every
  | cons change changes ih =>
      refine ih _ (set_fields_every change.set _ ?_ (given change List.mem_cons_self))
        fun other among => given other (List.mem_cons_of_mem _ among)
      split
      · exact nofun
      · exact clear_fields_every _ _ every

end Every

end Record

-- An update that only removes: it clears the id and sets nothing.
def RowUpdate.purges (change : RowUpdate) : Bool := change.removesRecord && change.set.isEmpty

-- Whether a record is there after an update. A purging update creates a record that was not there.
def RowUpdate.leaves (present : Bool) (change : RowUpdate) : Bool := !(present && change.purges)

namespace Records

-- What the updates of one record make of it.
def recordAfter (start : Option Record) (changes : List RowUpdate) : Option Record :=
  if changes.foldl RowUpdate.leaves start.isSome then some (changes.foldl Record.amend (start.getD .empty)) else none

theorem record_after_nil (start : Option Record) : recordAfter start [] = start := by
  cases start <;> rfl

theorem amend_purged (record : Record) (change : RowUpdate) (purges : change.purges = true) :
    record.amend change = .empty := by
  rw [RowUpdate.purges, Bool.and_eq_true, List.isEmpty_iff] at purges
  rw [Record.amend, if_pos purges.1, purges.2]
  rfl

theorem record_after_cons (start : Option Record) (change : RowUpdate) (changes : List RowUpdate) :
    recordAfter start (change :: changes) = recordAfter (recordAfter start [change]) changes := by
  cases left : RowUpdate.leaves start.isSome change with
  | true => simp [recordAfter, left]
  | false =>
      have gone := left
      rw [RowUpdate.leaves, Bool.not_eq_false', Bool.and_eq_true] at gone
      simp [recordAfter, left, amend_purged _ _ gone.2]

theorem record_after_append (start : Option Record) (changes later : List RowUpdate) :
    recordAfter start (changes ++ later) = recordAfter (recordAfter start changes) later := by
  induction changes generalizing start with
  | nil => rw [record_after_nil, List.nil_append]
  | cons change changes ih => rw [List.cons_append, record_after_cons, ih, ← record_after_cons]

theorem get?_update (records : Records) (change : RowUpdate) (id : RecordId) :
    (records.update change).get? id =
      if id = change.id then recordAfter (records.get? id) [change] else records.get? id := by
  by_cases same : id = change.id
  · rw [if_pos same, same, update]
    cases found : records.get? change.id with
    | none => simp [recordAfter, RowUpdate.leaves, Record.amend, Record.clear_fields_empty, SortedMap.get?_insert]
    | some record =>
        cases removes : change.removesRecord with
        | false =>
            simp [recordAfter, RowUpdate.leaves, RowUpdate.purges, Record.amend, removes, SortedMap.get?_insert]
        | true =>
            cases sets : change.set.isEmpty with
            | false =>
                simp [recordAfter, RowUpdate.leaves, RowUpdate.purges, Record.amend, removes, sets, SortedMap.get?_insert]
            | true => simp [recordAfter, RowUpdate.leaves, RowUpdate.purges, removes, sets, SortedMap.get?_erase]
  · rw [if_neg same, update]
    split
    · rw [SortedMap.get?_insert, if_neg same]
    · split
      · split
        · rw [SortedMap.get?_erase, if_neg same]
        · rw [SortedMap.get?_insert, if_neg same]
      · rw [SortedMap.get?_insert, if_neg same]

theorem get?_updateAll (records : Records) (changes : List RowUpdate) (id : RecordId) :
    (records.updateAll changes).get? id = recordAfter (records.get? id) (changes.filter (·.id == id)) := by
  induction changes generalizing records with
  | nil => exact (record_after_nil _).symm
  | cons change changes ih =>
      rw [updateAll, List.foldl_cons]
      refine (ih (records.update change)).trans ?_
      rw [get?_update]
      by_cases same : change.id = id
      · rw [if_pos same.symm, List.filter_cons_of_pos (by simp [same]), ← record_after_cons]
      · rw [if_neg (Ne.symm same), List.filter_cons_of_neg (by simp [same])]

end Records

-- An update that keeps the record and does not name a key.
structure RowUpdate.Spares (change : RowUpdate) (key : String) : Prop where
  stays : change.removesRecord = false
  cleared : ∀ name ∈ change.clear, Text.lower name ≠ key
  set : ∀ item ∈ change.set, Text.lower item.1 ≠ key

section Spared

variable {key : String}

theorem RowUpdate.leaves_spared (changes : List RowUpdate) (spares : ∀ change ∈ changes, change.Spares key) :
    changes.foldl leaves true = true := by
  induction changes with
  | nil => rfl
  | cons change changes ih =>
      have left : leaves true change = true := by
        rw [leaves, purges, (spares change List.mem_cons_self).stays]
        rfl
      rw [List.foldl_cons, left]
      exact ih fun other among => spares other (List.mem_cons_of_mem _ among)

namespace Record

theorem clear_fields_spared (record : Record) (names : List String) (others : ∀ name ∈ names, Text.lower name ≠ key) :
    (record.clearFields names).get? key = record.get? key := by
  induction names generalizing record with
  | nil => rfl
  | cons name names ih =>
      rw [clearFields, List.foldl_cons]
      refine (ih _ fun other among => others other (List.mem_cons_of_mem _ among)).trans ?_
      split
      · rfl
      · rw [SortedMap.get?_erase, if_neg (Ne.symm (others name List.mem_cons_self))]

theorem set_fields_spared (record : Record) (items : List (String × Value))
    (others : ∀ item ∈ items, Text.lower item.1 ≠ key) : (record.setFields items).get? key = record.get? key := by
  induction items generalizing record with
  | nil => rfl
  | cons item items ih =>
      have elsewhere := Ne.symm (others item List.mem_cons_self)
      rw [setFields, List.foldl_cons]
      refine (ih _ fun other among => others other (List.mem_cons_of_mem _ among)).trans ?_
      rw [setField]
      split
      · rfl
      · split
        · rw [SortedMap.get?_erase, if_neg elsewhere]
        · rw [SortedMap.get?_insert, if_neg elsewhere]

-- Updates leave the value under a key that none of them names.
theorem amend_all_spared (record : Record) (changes : List RowUpdate) (spares : ∀ change ∈ changes, change.Spares key) :
    (changes.foldl amend record).get? key = record.get? key := by
  induction changes generalizing record with
  | nil => rfl
  | cons change changes ih =>
      obtain ⟨stays, cleared, set⟩ := spares change List.mem_cons_self
      rw [List.foldl_cons]
      refine (ih _ fun other among => spares other (List.mem_cons_of_mem _ among)).trans ?_
      rw [amend, stays, if_neg Bool.false_ne_true, set_fields_spared _ _ set, clear_fields_spared _ _ cleared]

end Record

end Spared

end ShardQuery
