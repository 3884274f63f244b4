import ShardQuery.Proofs.Store.Shards
/-!
Stores and their write log. Main statements: imports and deletions keep every node at what the log says of each
record, except that a record is there when the imports as they were written leave it.
-/

set_option autoImplicit false

namespace ShardQuery

def LogEntry.updatesOf (table : TableId) (shard : ShardId) (id : RecordId) (entry : LogEntry) : List RowUpdate :=
  if entry.table = table ∧ entry.shard = shard then entry.updates.filter (·.id == id) else []

-- The logged updates of one record, in their order.
def updatesFor (log : List LogEntry) (table : TableId) (shard : ShardId) (id : RecordId) : List RowUpdate :=
  log.flatMap (LogEntry.updatesOf table shard id)

section UpdatesFor

variable (log : List LogEntry) (table other : TableId) (shard : ShardId) (id : RecordId)

theorem updates_for_append (entry : LogEntry) :
    updatesFor (log ++ [entry]) table shard id = updatesFor log table shard id ++ entry.updatesOf table shard id := by
  rw [updatesFor, List.flatMap_append, List.flatMap_singleton, updatesFor]

theorem updates_of_other (entry : LogEntry) (elsewhere : entry.table ≠ table) : entry.updatesOf table shard id = [] :=
  if_neg fun here => elsewhere here.1

theorem updates_of_own (entry : LogEntry) :
    entry.updatesOf entry.table entry.shard id = entry.updates.filter (·.id == id) := if_pos ⟨rfl, rfl⟩

theorem updates_for_deleted_table :
    updatesFor (log.filter (·.table != other)) table shard id =
      if table = other then [] else updatesFor log table shard id := by
  induction log with
  | nil => simp [updatesFor]
  | cons entry log ih =>
      have front : updatesFor (entry :: log) table shard id =
        entry.updatesOf table shard id ++ updatesFor log table shard id := rfl
      by_cases gone : entry.table = other
      · rw [List.filter_cons_of_neg (by simp [gone]), ih]
        by_cases same : table = other
        · rw [if_pos same, if_pos same]
        · rw [if_neg same, if_neg same, front, updates_of_other table shard id entry (gone ▸ Ne.symm same), List.nil_append]
      · have kept : updatesFor ((entry :: log).filter (·.table != other)) table shard id =
            entry.updatesOf table shard id ++ updatesFor (log.filter (·.table != other)) table shard id := by
          rw [List.filter_cons_of_pos (by simp [gone])]
          rfl
        rw [kept, ih, front]
        by_cases same : table = other
        · rw [if_pos same, if_pos same, updates_of_other table shard id entry (same ▸ gone), List.nil_append]
        · rw [if_neg same, if_neg same]

theorem updates_of_forget (field : String) (entry : LogEntry) :
    (entry.forget field).updatesOf table shard id = (entry.updatesOf table shard id).map (RowUpdate.forget field) := by
  rw [LogEntry.updatesOf, LogEntry.updatesOf]
  change (if entry.table = table ∧ entry.shard = shard then _ else _) = _
  split
  · rw [LogEntry.forget, List.filter_map]
    rfl
  · rfl

theorem updates_for_deleted_field (field : String) :
    updatesFor (log.map fun entry => if entry.table == other then entry.forget field else entry) table shard id =
      if table = other then (updatesFor log table shard id).map (RowUpdate.forget field)
      else updatesFor log table shard id := by
  rw [updatesFor, List.flatMap_map]
  by_cases same : table = other
  · rw [if_pos same, updatesFor, List.map_flatMap]
    congr
    funext entry
    by_cases here : entry.table = other
    · rw [if_pos (beq_iff_eq.mpr here), updates_of_forget]
    · rw [if_neg fun equal => here (beq_iff_eq.mp equal), updates_of_other table shard id entry (same ▸ here)]
      rfl
  · rw [if_neg same, updatesFor]
    congr
    funext entry
    by_cases here : entry.table = other
    · have elsewhere : entry.table ≠ table := here ▸ Ne.symm same
      rw [if_pos (beq_iff_eq.mpr here), updates_of_forget, updates_of_other table shard id entry elsewhere]
      rfl
    · rw [if_neg fun equal => here (beq_iff_eq.mp equal)]

end UpdatesFor

-- Whether the log leaves the record there, counted from nothing.
def present (log : List LogEntry) (table : TableId) (shard : ShardId) (id : RecordId) : Bool :=
  (updatesFor log table shard id).foldl RowUpdate.leaves false

-- The fields that the log gives the record.
def amended (log : List LogEntry) (table : TableId) (shard : ShardId) (id : RecordId) : Record :=
  (updatesFor log table shard id).foldl Record.amend .empty

theorem present_append (log : List LogEntry) (entry : LogEntry) (table : TableId) (shard : ShardId) (id : RecordId) :
    present (log ++ [entry]) table shard id =
      (entry.updatesOf table shard id).foldl RowUpdate.leaves (present log table shard id) := by
  rw [present, updates_for_append, List.foldl_append, present]

theorem amended_append (log : List LogEntry) (entry : LogEntry) (table : TableId) (shard : ShardId) (id : RecordId) :
    amended (log ++ [entry]) table shard id =
      (entry.updatesOf table shard id).foldl Record.amend (amended log table shard id) := by
  rw [amended, updates_for_append, List.foldl_append, amended]

theorem updates_for_origin {log : List LogEntry} {table : TableId} {shard : ShardId} {id : RecordId} {change : RowUpdate}
    (among : change ∈ updatesFor log table shard id) :
    ∃ entry ∈ log, entry.table = table ∧ entry.shard = shard ∧ change ∈ entry.updates ∧ change.id = id := by
  obtain ⟨entry, logged, own⟩ := List.mem_flatMap.mp among
  rw [LogEntry.updatesOf] at own
  split at own
  · rename_i here
    obtain ⟨update, same⟩ := List.mem_filter.mp own
    exact ⟨entry, logged, here.1, here.2, update, beq_iff_eq.mp same⟩
  · cases own

-- A record is there only if it was written.
theorem present_written {written : List LogEntry} {table : TableId} {shard : ShardId} {id : RecordId}
    (there : present written table shard id = true) :
    ∃ entry ∈ written, entry.table = table ∧ entry.shard = shard ∧ ∃ change ∈ entry.updates, change.id = id := by
  have touched : updatesFor written table shard id ≠ [] := by
    intro none
    rw [present, none] at there
    cases there
  obtain ⟨change, among⟩ := List.exists_mem_of_ne_nil _ touched
  obtain ⟨entry, member, table, shard, update, own⟩ := updates_for_origin among
  exact ⟨entry, member, table, shard, change, update, own⟩

-- What a record holds was set by an import that the log still has.
theorem amended_logged (log : List LogEntry) (table : TableId) (shard : ShardId) (id : RecordId) :
    (amended log table shard id).Every fun key v => ∃ entry ∈ log, entry.table = table ∧
      ∃ change ∈ entry.updates, ∃ item ∈ change.set, Text.lower item.1 = key ∧ item.2 = v := by
  refine Record.amend_all_every _ .empty nofun fun change among item set _ => ?_
  obtain ⟨entry, logged, about, -, update, -⟩ := updates_for_origin among
  exact ⟨entry, logged, about, change, update, item, set, rfl, rfl⟩

theorem purged_empty (changes : List RowUpdate) (present : Bool) (record : Record)
    (before : present = false → record = .empty) (gone : changes.foldl RowUpdate.leaves present = false) :
    changes.foldl Record.amend record = .empty := by
  induction changes generalizing present record with
  | nil => exact before gone
  | cons change changes ih =>
      refine ih (RowUpdate.leaves present change) (record.amend change) ?_ gone
      intro left
      rw [RowUpdate.leaves, Bool.not_eq_false', Bool.and_eq_true] at left
      exact Records.amend_purged record change left.2

-- What an update list makes of a record whose fields are known even when it is not there.
theorem record_after_if (changes : List RowUpdate) (present : Bool) (record : Record)
    (before : present = false → record = .empty) :
    Records.recordAfter (if present = true then some record else none) changes =
      if changes.foldl RowUpdate.leaves present = true then some (changes.foldl Record.amend record) else none := by
  cases present with
  | true => rfl
  | false =>
      rw [before rfl]
      rfl

namespace Store

-- An import that is taken: its records are of the shard, and the owners of the shard can be counted.
structure Fits (store : Store) (entry : LogEntry) : Prop where
  placed : ∀ change ∈ entry.updates, shardOf change.id store.width = entry.shard
  counted : entry.shard.toNat + (store.replicas.toNat - 1) < 2 ^ 64

instance (store : Store) (entry : LogEntry) : Decidable (store.Fits entry) :=
  decidable_of_iff ((∀ change ∈ entry.updates, shardOf change.id store.width = entry.shard) ∧
    entry.shard.toNat + (store.replicas.toNat - 1) < 2 ^ 64) ⟨fun fits => ⟨fits.1, fits.2⟩, fun fits => ⟨fits.1, fits.2⟩⟩

theorem fits_same_shape (store other : Store) (entry : LogEntry) (shape : store.SameShape other) (fits : store.Fits entry) :
    other.Fits entry :=
  ⟨shape.width ▸ fits.placed, shape.replicas ▸ fits.counted⟩

theorem check_placed_ok (store : Store) (shard : ShardId) (changes : List RowUpdate) :
    store.checkPlaced shard changes = .ok () ↔ ∀ change ∈ changes, shardOf change.id store.width = shard := by
  rw [checkPlaced, misplaced?]
  constructor
  · intro checked
    split at checked
    · cases checked
    · rename_i none
      simpa using List.find?_eq_none.mp none
  · intro placed
    rw [List.find?_eq_none.mpr (by simpa using placed)]

theorem import_fits (store after : Store) (entry : LogEntry) (logged : Bool)
    (imported : store.importRows entry.table entry.shard entry.updates logged = .ok after) : store.Fits entry := by
  unfold importRows at imported
  cases checked : store.checkPlaced entry.shard entry.updates with
  | error e =>
      rw [checked] at imported
      cases imported
  | ok _ =>
      refine ⟨(check_placed_ok store _ _).mp checked, ?_⟩
      rw [checked] at imported
      unfold Store.owners at imported
      split at imported
      · assumption
      · cases imported

theorem fits_import (store : Store) (entry : LogEntry) (logged : Bool) (fits : store.Fits entry) :
    store.importRows entry.table entry.shard entry.updates logged = .ok
      (let imported := store.applyOnAll (store.ring entry.shard) entry.table entry.shard entry.updates
       if logged then imported.record entry else imported) := by
  unfold importRows Store.owners
  rw [(check_placed_ok store _ _).mpr fits.placed, if_pos fits.counted]
  rfl

-- The store holds what its log says of every record, but has the records that `written` leaves.
structure Mirrors (store : Store) (written : List LogEntry) : Prop where
  shaped : store.Shaped
  trimmed : ∀ node, (store.partition node).Trimmed
  holding : ∀ node : NodeId, node.index.toNat < store.nodes.toNat → ∀ table shard id,
    (records (store.partition node) table shard).get? id =
      if node ∈ store.ring shard then
        if present written table shard id = true then some (amended store.log table shard id) else none
      else none
  vanished : ∀ table shard id, present written table shard id = false → amended store.log table shard id = .empty
  fits : ∀ entry, entry ∈ store.log ∨ entry ∈ written → store.Fits entry

theorem replicated_empty (count i : Nat) : ((List.replicate count (.empty : Partition))[i]?).getD .empty = .empty := by
  rw [List.getElem?_replicate]
  split
  · rfl
  · rfl

theorem make_mirrors (nodes : UInt32) (replicas : Nat) (width fresh : UInt64) :
    (make nodes replicas width fresh).Mirrors [] := by
  have blank (node : NodeId) : (make nodes replicas width fresh).partition node = .empty :=
    replicated_empty _ node.index.toNat
  refine ⟨make_shaped nodes replicas width fresh, ?_, ?_, ?_, ?_⟩
  · intro node key records found
    rw [blank] at found
    cases found
  · intro node inside table shard id
    rw [blank, if_neg (by simp [present, updatesFor] : ¬present [] table shard id = true), ite_self]
    rfl
  · intro table shard id _
    rfl
  · intro entry member
    rcases member with member | member <;> cases member

-- What an import that is taken makes of the store.
theorem import_effect (store after : Store) (entry : LogEntry) (logged : Bool) (shaped : store.Shaped)
    (imported : store.importRows entry.table entry.shard entry.updates logged = .ok after) :
    after.log = (if logged = true then store.log ++ [entry] else store.log) ∧ store.SameShape after ∧
      after.partitions.length = store.partitions.length ∧
      ∀ node : NodeId, node.index.toNat < store.nodes.toNat → after.partition node =
        if node ∈ store.ring entry.shard then (store.partition node).apply entry.table entry.shard entry.updates
        else store.partition node := by
  rw [fits_import store entry logged (import_fits store after entry logged imported)] at imported
  obtain ⟨partitions, whole, length⟩ :=
    apply_on_all_shape store (store.ring entry.shard) entry.table entry.shard entry.updates
  have shape : after = { store with partitions, log := if logged = true then store.log ++ [entry] else store.log } := by
    rw [← Except.ok.inj imported, whole]
    cases logged with
    | true => rfl
    | false => rfl
  refine ⟨by rw [shape], ⟨by rw [shape], by rw [shape], by rw [shape]⟩, by rw [shape, length], ?_⟩
  intro node inside
  have applied := partition_apply_on_all store _ node entry.table entry.shard entry.updates
    (ring_nodup store shaped entry.shard) (shaped.partitioned ▸ inside)
  rw [whole] at applied
  rw [shape]
  exact applied

theorem import_shaped (store after : Store) (entry : LogEntry) (logged : Bool) (shaped : store.Shaped)
    (imported : store.importRows entry.table entry.shard entry.updates logged = .ok after) : after.Shaped := by
  obtain ⟨-, alike, length, -⟩ := import_effect store after entry logged shaped imported
  exact ⟨alike.nodes ▸ shaped.peopled, alike.nodes ▸ alike.replicas ▸ shaped.enough,
    alike.nodes ▸ length.trans shaped.partitioned⟩

theorem import_trimmed (store after : Store) (entry : LogEntry) (logged : Bool) (shaped : store.Shaped)
    (trimmed : ∀ node, (store.partition node).Trimmed)
    (imported : store.importRows entry.table entry.shard entry.updates logged = .ok after) (node : NodeId) :
    (after.partition node).Trimmed := by
  obtain ⟨-, -, length, applied⟩ := import_effect store after entry logged shaped imported
  by_cases inside : node.index.toNat < store.nodes.toNat
  · rw [applied node inside]
    split
    · exact Partition.apply_trimmed _ _ _ _ (trimmed node)
    · exact trimmed node
  · rw [partition_outside]
    · exact Partition.empty_trimmed
    · exact Nat.le_trans (Nat.le_of_eq (length.trans shaped.partitioned)) (Nat.le_of_not_lt inside)

-- The records that an import touches follow its log entry, the others stay.
theorem import_holding (store : Store) (written : List LogEntry) (entry : LogEntry) (mirrors : store.Mirrors written)
    (node : NodeId) (inside : node.index.toNat < store.nodes.toNat) (table : TableId) (shard : ShardId) (id : RecordId) :
    (records (if node ∈ store.ring entry.shard then (store.partition node).apply entry.table entry.shard entry.updates
      else store.partition node) table shard).get? id =
      if node ∈ store.ring shard then
        if present (written ++ [entry]) table shard id = true then some (amended (store.log ++ [entry]) table shard id)
        else none
      else none := by
  have held := mirrors.holding node inside table shard id
  by_cases here : table = entry.table ∧ shard = entry.shard
  · obtain ⟨rfl, rfl⟩ := here
    by_cases owner : node ∈ store.ring entry.shard
    · rw [if_pos owner] at held ⊢
      rw [if_pos owner, Partition.records_apply, if_pos ⟨rfl, rfl⟩, Records.get?_updateAll, held,
        record_after_if _ _ _ (mirrors.vanished entry.table entry.shard id), present_append, amended_append,
        updates_of_own]
    · rw [if_neg owner] at held ⊢
      rw [if_neg owner, held]
  · have kept (log : List LogEntry) : updatesFor (log ++ [entry]) table shard id = updatesFor log table shard id := by
      rw [updates_for_append, LogEntry.updatesOf, if_neg fun same => here ⟨same.1.symm, same.2.symm⟩, List.append_nil]
    rw [present, amended, kept, kept]
    refine Eq.trans ?_ held
    split
    · rw [Partition.records_apply, if_neg here]
    · rfl

theorem import_mirrors (store after : Store) (written : List LogEntry) (entry : LogEntry) (mirrors : store.Mirrors written)
    (imported : store.importRows entry.table entry.shard entry.updates true = .ok after) :
    after.Mirrors (written ++ [entry]) ∧ after.log = store.log ++ [entry] ∧ store.SameShape after := by
  obtain ⟨logged, alike, -, applied⟩ := import_effect store after entry true mirrors.shaped imported
  rw [if_pos rfl] at logged
  refine ⟨⟨?_, ?_, ?_, ?_, ?_⟩, logged, alike⟩
  · exact import_shaped store after entry true mirrors.shaped imported
  · exact import_trimmed store after entry true mirrors.shaped mirrors.trimmed imported
  · intro node inside table shard id
    rw [← alike.nodes] at inside
    rw [applied node inside, logged, ← same_shape_ring store after alike shard]
    exact import_holding store written entry mirrors node inside table shard id
  · intro table shard id gone
    rw [present_append] at gone
    rw [logged, amended_append]
    exact purged_empty _ _ _ (mirrors.vanished table shard id) gone
  · intro other member
    have fits := import_fits store after entry true imported
    rw [logged, List.mem_append, List.mem_append, List.mem_singleton] at member
    have before : store.Fits other := by
      rcases member with (old | new) | (old | new)
      · exact mirrors.fits other (.inl old)
      · exact new ▸ fits
      · exact mirrors.fits other (.inr old)
      · exact new ▸ fits
    exact fits_same_shape store after other alike before

theorem partition_mapped (store : Store) (node : NodeId) (change : Partition → Partition) (blank : change .empty = .empty) :
    ((store.partitions.map change)[node.index.toNat]?).getD .empty = change (store.partition node) := by
  rw [List.getElem?_map, partition]
  cases store.partitions[node.index.toNat]? with
  | none => exact blank.symm
  | some partition => rfl

theorem delete_table_partition (store : Store) (deleted : TableId) (node : NodeId) :
    (store.deleteTable deleted).partition node = (store.partition node).deleteTable deleted :=
  partition_mapped store node (Partition.deleteTable · deleted) rfl

theorem delete_table_shaped (store : Store) (deleted : TableId) (shaped : store.Shaped) :
    (store.deleteTable deleted).Shaped :=
  ⟨shaped.peopled, shaped.enough, (List.length_map _).trans shaped.partitioned⟩

theorem delete_field_partition (store : Store) (deleted : TableId) (name : String) (node : NodeId) :
    (store.deleteField deleted name).partition node = (store.partition node).deleteField deleted (Text.lower name) :=
  partition_mapped store node (Partition.deleteField · deleted (Text.lower name)) rfl

theorem delete_field_shaped (store : Store) (deleted : TableId) (name : String) (shaped : store.Shaped) :
    (store.deleteField deleted name).Shaped :=
  ⟨shaped.peopled, shaped.enough, (List.length_map _).trans shaped.partitioned⟩

theorem delete_table_mirrors (store : Store) (written : List LogEntry) (deleted : TableId) (mirrors : store.Mirrors written) :
    (store.deleteTable deleted).Mirrors (written.filter (·.table != deleted)) := by
  refine ⟨delete_table_shaped store deleted mirrors.shaped, ?_, ?_, ?_, ?_⟩
  · intro node
    rw [delete_table_partition]
    exact Partition.delete_table_trimmed _ _ (mirrors.trimmed node)
  · intro node inside table shard id
    have held := mirrors.holding node inside table shard id
    rw [delete_table_partition, Partition.records_delete_table, present, amended, deleteTable, updates_for_deleted_table,
      updates_for_deleted_table]
    by_cases same : table = deleted
    · rw [if_pos same, if_pos same]
      exact (ite_self none).symm
    · rw [if_neg same, if_neg same, if_neg same]
      exact held
  · intro table shard id gone
    rw [present, updates_for_deleted_table] at gone
    rw [amended, deleteTable, updates_for_deleted_table]
    by_cases same : table = deleted
    · rw [if_pos same]
      rfl
    · rw [if_neg same] at gone ⊢
      exact mirrors.vanished table shard id gone
  · intro entry member
    have before : entry ∈ store.log ∨ entry ∈ written :=
      member.imp (fun among => (List.mem_filter.mp among).1) (fun among => (List.mem_filter.mp among).1)
    exact fits_same_shape store _ entry ⟨rfl, rfl, rfl⟩ (mirrors.fits entry before)

theorem fits_forget (store : Store) (entry : LogEntry) (field : String) (fits : store.Fits entry) :
    store.Fits (entry.forget field) := by
  refine ⟨?_, fits.counted⟩
  intro change member
  obtain ⟨before, among, rfl⟩ := List.mem_map.mp member
  exact fits.placed before among

-- The log forgets of every record what the store drops of it.
theorem amended_deleted_field (store : Store) (deleted : TableId) (name : String) (table : TableId) (shard : ShardId)
    (id : RecordId) :
    amended (store.deleteField deleted name).log table shard id =
      if table = deleted then (amended store.log table shard id).erase (Text.lower name)
      else amended store.log table shard id := by
  rw [amended, deleteField, updates_for_deleted_field]
  by_cases same : table = deleted
  · rw [if_pos same, if_pos same]
    exact Record.amend_all_forget .empty _ _
  · rw [if_neg same, if_neg same, amended]

theorem delete_field_mirrors (store : Store) (written : List LogEntry) (deleted : TableId) (name : String)
    (mirrors : store.Mirrors written) : (store.deleteField deleted name).Mirrors written := by
  have logged := amended_deleted_field store deleted name
  refine ⟨delete_field_shaped store deleted name mirrors.shaped, ?_, ?_, ?_, ?_⟩
  · intro node
    rw [delete_field_partition]
    exact Partition.delete_field_trimmed _ _ _ (mirrors.trimmed node)
  · intro node inside table shard id
    have held := mirrors.holding node inside table shard id
    rw [delete_field_partition, Partition.records_delete_field, logged]
    by_cases same : table = deleted
    · rw [if_pos same, if_pos same, SortedMap.get?_mapItems, held]
      change Option.map _ (if node ∈ store.ring shard then _ else none) = if node ∈ store.ring shard then _ else none
      split
      · split
        · rfl
        · rfl
      · rfl
    · rw [if_neg same, if_neg same]
      exact held
  · intro table shard id gone
    rw [logged, mirrors.vanished table shard id gone, SortedMap.erase_empty, ite_self]
  · intro entry member
    rcases member with logged | kept
    · obtain ⟨before, among, same⟩ := List.mem_map.mp logged
      have fits := mirrors.fits before (.inl among)
      by_cases here : before.table = deleted
      · rw [if_pos (beq_iff_eq.mpr here)] at same
        rw [← same]
        exact fits_same_shape store _ _ ⟨rfl, rfl, rfl⟩ (fits_forget store before _ fits)
      · rw [if_neg fun equal => here (beq_iff_eq.mp equal)] at same
        exact fits_same_shape store _ entry ⟨rfl, rfl, rfl⟩ (same ▸ fits)
    · exact fits_same_shape store _ entry ⟨rfl, rfl, rfl⟩ (mirrors.fits entry (.inr kept))

end Store

end ShardQuery
