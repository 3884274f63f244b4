import ShardQuery.Proofs.Store.Shards
/-!
What a batch of updates makes of a shard, as look-ups. Main statement: the updates take effect in their order, each one
clears before it sets, and a batch leaves what is meant unless it removes a record that is not there: that makes an
empty record.
-/

set_option autoImplicit false

namespace ShardQuery

-- The values of one record under their lowercase names.
abbrev Fields := String → Option Value

namespace Fields

def blank : Fields := fun _ => none

def clear (fields : Fields) (names : List String) : Fields :=
  fun key => if key ∈ names.map Text.lower then none else fields key

def set (fields : Fields) (item : String × Value) : Fields :=
  if Text.same item.1 idColumn then fields
  else fun key => if key = Text.lower item.1 then (if item.2.isNull then none else some item.2) else fields key

end Fields

-- What an update is meant to leave of a record: the clear list goes first, with the id in it for the whole record, and
-- the values are set in order. Only an update that removes and sets nothing leaves no record.
def RowUpdate.meant (change : RowUpdate) (before : Option Fields) : Option Fields :=
  if change.purges then none
  else some (change.set.foldl Fields.set
    (if change.removesRecord then .blank else (before.getD .blank).clear change.clear))

-- The records of a shard under their ids.
abbrev ShardContent := RecordId → Option Fields

namespace ShardContent

def put (content : ShardContent) (id : RecordId) (fields : Option Fields) : ShardContent :=
  fun other => if other = id then fields else content other

def meant (content : ShardContent) (change : RowUpdate) : ShardContent :=
  content.put change.id (change.meant (content change.id))

-- Whether an update removes a record that is not there.
def misses (content : ShardContent) (change : RowUpdate) : Bool := change.purges && (content change.id).isNone

-- What an update does leave.
def taken (content : ShardContent) (change : RowUpdate) : ShardContent :=
  if content.misses change then content.put change.id (some .blank) else content.meant change

def NoneMissed (content : ShardContent) : List RowUpdate → Prop
  | [] => True
  | change :: changes => content.misses change = false ∧ NoneMissed (content.meant change) changes

instance decideNoneMissed (content : ShardContent) : (changes : List RowUpdate) → Decidable (content.NoneMissed changes)
  | [] => .isTrue trivial
  | change :: changes => @instDecidableAnd _ _ _ (decideNoneMissed (content.meant change) changes)

theorem taken_as_meant (content : ShardContent) (changes : List RowUpdate) (none : content.NoneMissed changes) :
    changes.foldl taken content = changes.foldl meant content := by
  induction changes generalizing content with
  | nil => rfl
  | cons change changes ih =>
      have first : content.taken change = content.meant change := if_neg (by rw [none.1]; exact Bool.false_ne_true)
      rw [List.foldl_cons, List.foldl_cons, first]
      exact ih (content.meant change) none.2

end ShardContent

namespace Record

theorem set_fields_read (record : Record) (items : List (String × Value)) :
    (record.setFields items).get? = items.foldl Fields.set record.get? := by
  induction items generalizing record with
  | nil => rfl
  | cons item items ih =>
      have first : (record.setField item).get? = Fields.set record.get? item := by
        funext key
        rw [setField, Fields.set]
        split
        · rfl
        · split
          · rw [SortedMap.get?_erase]
          · rw [SortedMap.get?_insert]
      rw [setFields, List.foldl_cons, List.foldl_cons, ← first]
      exact ih (record.setField item)

theorem clear_fields_read (record : Record) (names : List String)
    (others : ∀ name ∈ names, Text.same name idColumn = false) :
    (record.clearFields names).get? = Fields.clear record.get? names := by
  induction names generalizing record with
  | nil =>
      funext key
      rw [Fields.clear, List.map_nil, if_neg List.not_mem_nil]
      rfl
  | cons name names ih =>
      have later := ih (record.erase (Text.lower name)) fun other among => others other (List.mem_cons_of_mem _ among)
      rw [clearFields, List.foldl_cons, others name List.mem_cons_self, if_neg Bool.false_ne_true]
      refine later.trans (funext fun key => ?_)
      rw [Fields.clear, Fields.clear, SortedMap.get?_erase, List.map_cons]
      by_cases here : key = Text.lower name
      · rw [if_pos here, ite_self, if_pos (here ▸ List.mem_cons_self)]
      · rw [if_neg here]
        simp [here]

end Record

namespace Records

def content (records : Records) : ShardContent := fun id => (records.get? id).map SortedMap.get?

theorem content_insert (records : Records) (id : RecordId) (record : Record) :
    content (records.insert id record) = records.content.put id (some record.get?) := by
  funext other
  rw [content, SortedMap.get?_insert, ShardContent.put]
  split
  · rfl
  · rfl

theorem content_erase (records : Records) (id : RecordId) : content (records.erase id) = records.content.put id none := by
  funext other
  rw [content, SortedMap.get?_erase, ShardContent.put]
  split
  · rfl
  · rfl

theorem content_update (records : Records) (change : RowUpdate) :
    content (records.update change) = records.content.taken change := by
  have created : (Record.setFields .empty change.set).get? = change.set.foldl Fields.set .blank :=
    Record.set_fields_read .empty change.set
  rw [update, ShardContent.taken, ShardContent.misses]
  cases found : records.get? change.id with
  | none =>
      have absent : records.content change.id = none := by rw [content, found]; rfl
      rw [content_insert, created, absent]
      cases purges : change.purges with
      | true =>
          obtain ⟨-, unset⟩ := Bool.and_eq_true_iff.mp purges
          rw [List.isEmpty_iff.mp unset]
          rfl
      | false =>
          have cleared : Fields.clear .blank change.clear = .blank := funext fun key => ite_self none
          simp [ShardContent.meant, RowUpdate.meant, purges, absent, cleared]
  | some record =>
      have present : records.content change.id = some record.get? := by rw [content, found]; rfl
      have kept : (change.purges && (records.content change.id).isNone) = false := by simp [present]
      rw [kept, if_neg Bool.false_ne_true, ShardContent.meant, present]
      cases removes : change.removesRecord with
      | true =>
          cases unset : change.set.isEmpty with
          | true =>
              have gone : change.purges = true := by rw [RowUpdate.purges, removes, unset]; rfl
              simp [content_erase, RowUpdate.meant, gone]
          | false =>
              have stays : change.purges = false := by rw [RowUpdate.purges, removes, unset]; rfl
              simp [content_insert, created, RowUpdate.meant, stays, removes]
      | false =>
          have stays : change.purges = false := by rw [RowUpdate.purges, removes]; rfl
          have named : ∀ name ∈ change.clear, Text.same name idColumn = false := by
            simpa [RowUpdate.removesRecord] using removes
          simp [content_insert, RowUpdate.meant, stays, removes, Record.set_fields_read,
            Record.clear_fields_read record change.clear named]

theorem content_update_all (records : Records) (changes : List RowUpdate) :
    content (records.updateAll changes) = changes.foldl ShardContent.taken records.content := by
  induction changes generalizing records with
  | nil => rfl
  | cons change changes ih =>
      rw [updateAll, List.foldl_cons, List.foldl_cons, ← content_update]
      exact ih (records.update change)

theorem empty_content_iff (records : Records) : records.isEmpty = true ↔ ∀ id, records.content id = none := by
  rw [SortedMap.isEmpty_iff]
  constructor
  · rintro rfl id
    rfl
  · intro none
    refine SortedMap.ext _ _ fun id => ?_
    exact Option.map_eq_none_iff.mp (none id)

end Records

namespace Partition

-- A shard is kept as long as it has a record.
theorem apply_held_iff (partition : Partition) (table : TableId) (shard : ShardId) (changes : List RowUpdate) :
    ((partition.apply table shard changes).get? ⟨table, shard⟩).isSome = true ↔
      ∃ id, (((Store.records partition table shard).updateAll changes).content id).isSome = true := by
  rw [apply]
  split
  · rename_i none
    have gone := (Records.empty_content_iff _).mp none
    rw [SortedMap.get?_erase, if_pos rfl]
    refine ⟨fun held => absurd held Bool.false_ne_true, ?_⟩
    rintro ⟨id, there⟩
    rw [gone id] at there
    exact there
  · rename_i some
    rw [SortedMap.get?_insert, if_pos rfl]
    refine ⟨fun _ => ?_, fun _ => rfl⟩
    by_contra none
    exact some ((Records.empty_content_iff _).mpr fun id => Option.not_isSome_iff_eq_none.mp fun there => none ⟨id, there⟩)

end Partition

namespace Store

-- The records of a shard as a node has them.
def contentAt (store : Store) (node : NodeId) (table : TableId) (shard : ShardId) : ShardContent :=
  (records (store.partition node) table shard).content

theorem batch_taken_in_order (store : Store) (node : NodeId) (table : TableId) (shard : ShardId)
    (changes : List RowUpdate) (inside : node.index.toNat < store.partitions.length) :
    let after := store.applyOn node table shard changes
    after.contentAt node table shard = changes.foldl ShardContent.taken (store.contentAt node table shard) ∧
    ((store.contentAt node table shard).NoneMissed changes →
      after.contentAt node table shard = changes.foldl ShardContent.meant (store.contentAt node table shard)) ∧
    (((after.partition node).get? ⟨table, shard⟩).isSome = true ↔
      ∃ id, (after.contentAt node table shard id).isSome = true) ∧
    ∀ other table' shard', (other = node → table' = table → shard' ≠ shard) →
      records (after.partition other) table' shard' = records (store.partition other) table' shard' := by
  intro after
  have applied : after.partition node = (store.partition node).apply table shard changes :=
    (partition_apply_on store node node table shard changes inside).trans (if_pos rfl)
  have updated : records (after.partition node) table shard =
      (records (store.partition node) table shard).updateAll changes := by
    rw [applied, Partition.records_apply, if_pos ⟨rfl, rfl⟩]
  have taken : after.contentAt node table shard =
      changes.foldl ShardContent.taken (store.contentAt node table shard) := by
    rw [contentAt, updated, Records.content_update_all, contentAt]
  refine ⟨taken, fun none => taken.trans (ShardContent.taken_as_meant _ changes none), ?_, ?_⟩
  · rw [contentAt, updated, applied]
    exact Partition.apply_held_iff _ table shard changes
  · intro other table' shard' elsewhere
    by_cases there : other.index.toNat < store.partitions.length
    · rw [partition_apply_on store node other table shard changes there]
      split
      · rename_i same
        rw [Partition.records_apply, if_neg fun here => elsewhere same here.1 here.2, same]
      · rfl
    · have beyond : after.partitions.length ≤ other.index.toNat := by
        rw [show after.partitions.length = store.partitions.length from List.length_modify _ _ _]
        exact Nat.le_of_not_lt there
      rw [partition_outside after other beyond, partition_outside store other (Nat.le_of_not_lt there)]

-- A record with two fields.
def twoFields : Store := (make 1 1 10 0).applyOn ⟨0⟩ ⟨9⟩ 0 [⟨2, [], [("a", .int 1), ("B", .int 2)]⟩]

-- It is removed, made again with others by an update that clears its id, and loses those for another one.
def removedAndMade : List RowUpdate :=
  [⟨2, ["_id"], []⟩, ⟨2, ["a", "_Id"], [("D", .int 4), ("b", .int 5)]⟩,
    ⟨2, ["d"], [("B", .null), ("_ID", .int 7), ("E", .int 3)]⟩]

theorem removed_record_made_anew : (⟨0⟩ : NodeId).index.toNat < twoFields.partitions.length ∧
    (twoFields.contentAt ⟨0⟩ ⟨9⟩ 0).NoneMissed removedAndMade ∧
    ((twoFields.applyOn ⟨0⟩ ⟨9⟩ 0 removedAndMade).contentAt ⟨0⟩ ⟨9⟩ 0 2).map
      (fun fields => ["a", "b", "d", "e", "_id"].map fields) = some [none, none, none, some (.int 3), none] := by
  have inside : (⟨0⟩ : NodeId).index.toNat < twoFields.partitions.length := by decide
  have met : (twoFields.contentAt ⟨0⟩ ⟨9⟩ 0).NoneMissed removedAndMade := by decide +kernel
  obtain ⟨-, as_meant, -, -⟩ := batch_taken_in_order twoFields ⟨0⟩ ⟨9⟩ 0 removedAndMade inside
  refine ⟨inside, met, ?_⟩
  rw [as_meant met]
  decide +kernel

-- Removing the record that is not there makes it, for reading and for listing too.
theorem absent_removal_makes_record :
    ¬ ∀ (store : Store) (node : NodeId) (table : TableId) (shard : ShardId) (changes : List RowUpdate),
      node.index.toNat < store.partitions.length → (store.applyOn node table shard changes).contentAt node table shard =
        changes.foldl ShardContent.meant (store.contentAt node table shard) := by
  intro always
  have same := congrFun (always (make 1 1 10 0) ⟨0⟩ ⟨9⟩ 0 [⟨5, ["_id"], []⟩] (by decide)) 5
  have there := congrArg Option.isSome same
  exact absurd there (by decide +kernel)

end Store

end ShardQuery
