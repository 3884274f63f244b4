import ShardQuery.Proofs.Cbor.Compact
import ShardQuery.Proofs.Store.History
import ShardQuery.Proofs.Stored.Log
/-!
Replaying the write log. Main statement: a replay always takes the whole log, and the store that it gives answers as
the one that wrote the log exactly when the edits of the log left every record where the imports had left it.
-/

set_option autoImplicit false

namespace ShardQuery

open Cbor

-- A change that the write log takes notice of.
inductive StoreCall where
  | importRows (entry : LogEntry)
  | deleteTable (table : TableId)
  | deleteField (table : TableId) (field : String)

namespace StoreCall

def perform (store : Store) : StoreCall → Outcome Store
  | .importRows entry => store.importRows entry.table entry.shard entry.updates true
  | .deleteTable table => .ok (store.deleteTable table)
  | .deleteField table field => .ok (store.deleteField table field)

-- One call after the other, all of them successful.
def performAll (store : Store) (calls : List StoreCall) : Outcome Store := calls.foldlM perform store

def write (written : List LogEntry) : StoreCall → List LogEntry
  | .importRows entry => written ++ [entry]
  | .deleteTable table => written.filter (·.table != table)
  | .deleteField _ _ => written

-- The imports into the tables that are left, with all fields that they set when they were made. The store was opened
-- with the first of them.
def written (opened : List LogEntry) (calls : List StoreCall) : List LogEntry := calls.foldl write opened

end StoreCall

namespace Store

-- Two stores that no reader can tell apart.
structure SameAnswers (a b : Store) : Prop where
  shards : ∀ table, a.shards table = b.shards table
  rows : ∀ node table shard fields, a.readShard node table shard fields = b.readShard node table shard fields

theorem same_partitions_answers (a b : Store) (shape : a.SameShape b) (partitions : a.partitions = b.partitions) :
    a.SameAnswers b := by
  obtain ⟨nodes, replicas, width⟩ := shape
  cases a
  cases b
  subst nodes replicas width partitions
  exact ⟨fun _ => rfl, fun _ _ _ _ => rfl⟩

theorem perform_mirrors (store after : Store) (written : List LogEntry) (call : StoreCall) (mirrors : store.Mirrors written)
    (done : call.perform store = .ok after) : after.Mirrors (call.write written) ∧ store.SameShape after := by
  cases call with
  | importRows entry =>
      obtain ⟨kept, -, shape⟩ := import_mirrors store after written entry mirrors done
      exact ⟨kept, shape⟩
  | deleteTable table =>
      rw [← Except.ok.inj done]
      exact ⟨delete_table_mirrors store written table mirrors, rfl, rfl, rfl⟩
  | deleteField table field =>
      rw [← Except.ok.inj done]
      exact ⟨delete_field_mirrors store written table field mirrors, rfl, rfl, rfl⟩

theorem perform_all_mirrors (store final : Store) (written : List LogEntry) (calls : List StoreCall)
    (mirrors : store.Mirrors written) (done : StoreCall.performAll store calls = .ok final) :
    final.Mirrors (StoreCall.written written calls) ∧ store.SameShape final := by
  induction calls generalizing store written with
  | nil =>
      rw [← Except.ok.inj done]
      exact ⟨mirrors, rfl, rfl, rfl⟩
  | cons call calls ih =>
      rw [StoreCall.performAll, List.foldlM_cons] at done
      cases first : call.perform store with
      | error e =>
          rw [first] at done
          cases done
      | ok after =>
          rw [first] at done
          obtain ⟨kept, shape⟩ := perform_mirrors store after written call mirrors first
          obtain ⟨mirrored, later⟩ := ih after (call.write written) kept done
          exact ⟨mirrored, same_shape_trans _ _ _ shape later⟩

theorem replay_entry_import (store : Store) (entry : LogEntry) :
    store.replayEntry entry = store.importRows entry.table entry.shard entry.updates true := by
  unfold replayEntry importRows
  cases store.checkPlaced entry.shard entry.updates with
  | error e => rfl
  | ok _ =>
      cases store.owners entry.shard with
      | error e => rfl
      | ok owners => rfl

theorem replay_performs (store copy : Store) (log : List LogEntry) (replayed : store.replay log = (.ok (), copy)) :
    StoreCall.performAll store (log.map .importRows) = .ok copy := by
  induction log generalizing store with
  | nil => exact congrArg Except.ok (congrArg Prod.snd replayed)
  | cons entry log ih =>
      rw [replay, replay_entry_import] at replayed
      rw [List.map_cons, StoreCall.performAll, List.foldlM_cons, StoreCall.perform]
      cases imported : store.importRows entry.table entry.shard entry.updates true with
      | error e =>
          rw [imported] at replayed
          cases congrArg Prod.fst replayed
      | ok after =>
          rw [imported] at replayed
          exact ih after replayed

theorem written_imports (written log : List LogEntry) :
    StoreCall.written written (log.map .importRows) = written ++ log := by
  induction log generalizing written with
  | nil => exact (List.append_nil _).symm
  | cons entry log ih =>
      refine (ih (written ++ [entry])).trans ?_
      rw [List.append_assoc, List.singleton_append]

theorem replay_mirrors (store : Store) (log : List LogEntry) (mirrors : store.Mirrors store.log)
    (fits : ∀ entry ∈ log, store.Fits entry) :
    ∃ copy, store.replay log = (.ok (), copy) ∧ copy.log = store.log ++ log ∧ copy.Mirrors copy.log ∧
      store.SameShape copy := by
  induction log generalizing store with
  | nil => exact ⟨store, rfl, (List.append_nil _).symm, mirrors, rfl, rfl, rfl⟩
  | cons entry log ih =>
      have imported := fits_import store entry true (fits entry List.mem_cons_self)
      obtain ⟨kept, logged, shape⟩ := import_mirrors store _ store.log entry mirrors imported
      obtain ⟨copy, replayed, written, mirrored, later⟩ := ih _ (logged ▸ kept) fun other member =>
        fits_same_shape store _ other shape (fits other (List.mem_cons_of_mem _ member))
      refine ⟨copy, ?_, ?_, mirrored, same_shape_trans _ _ _ shape later⟩
      · rw [replay, replay_entry_import, imported]
        exact replayed
      · rw [written, logged, List.append_assoc, List.singleton_append]

-- A record that is there was imported, into the shard that holds its id.
theorem present_logged (store : Store) (written : List LogEntry) (mirrors : store.Mirrors written) (table : TableId)
    (shard : ShardId) (id : RecordId) (there : present written table shard id = true) :
    shard.toNat + (store.replicas.toNat - 1) < 2 ^ 64 ∧ shardOf id store.width = shard := by
  obtain ⟨entry, member, -, rfl, change, update, rfl⟩ := present_written there
  have fits := mirrors.fits entry (.inr member)
  exact ⟨fits.counted, fits.placed change update⟩

theorem present_counted (store : Store) (written : List LogEntry) (mirrors : store.Mirrors written) (table : TableId)
    (shard : ShardId) (id : RecordId) (there : present written table shard id = true) :
    shard.toNat + (store.replicas.toNat - 1) < 2 ^ 64 :=
  (present_logged store written mirrors table shard id there).1

theorem read_primary (store : Store) (table : TableId) (shard : ShardId) (fields : List String) (primary : NodeId)
    (others : List NodeId) (owners : store.ring shard = primary :: others)
    (counted : shard.toNat + (store.replicas.toNat - 1) < 2 ^ 64) :
    store.readShard none table shard fields =
      .ok ((records (store.partition primary) table shard).entries.map fun entry => recordRow fields entry.1 entry.2) := by
  unfold readShard Store.owners
  rw [if_pos counted, owners]
  rfl

-- The rows of the id column alone tell which records are there.
theorem primary_ids (store : Store) (written : List LogEntry) (mirrors : store.Mirrors written) (table : TableId)
    (shard : ShardId) (primary : NodeId) (others : List NodeId) (owners : store.ring shard = primary :: others)
    (counted : shard.toNat + (store.replicas.toNat - 1) < 2 ^ 64) :
    ∃ rows, store.readShard none table shard [idColumn] = .ok rows ∧
      ∀ id, (⟨[.id id]⟩ ∈ rows ↔ present written table shard id = true) := by
  refine ⟨_, read_primary store table shard [idColumn] primary others owners counted, ?_⟩
  intro id
  have owner : primary ∈ store.ring shard := owners ▸ List.mem_cons_self
  have held := mirrors.holding primary (ring_inside store mirrors.shaped shard primary owner) table shard id
  rw [if_pos owner] at held
  have listed : (⟨[.id id]⟩ : Row) ∈ (records (store.partition primary) table shard).entries.map
      (fun entry => recordRow [idColumn] entry.1 entry.2) ↔
        ((records (store.partition primary) table shard).get? id).isSome = true := by
    rw [SortedMap.get?_isSome, SortedMap.keys, List.mem_map, List.mem_map]
    constructor
    · rintro ⟨entry, member, same⟩
      have rows : (⟨[.id entry.1]⟩ : Row) = ⟨[.id id]⟩ := same
      injection rows with values
      injection values with value
      injection value with same
      exact ⟨entry, member, same⟩
    · rintro ⟨entry, member, rfl⟩
      exact ⟨entry, member, rfl⟩
  rw [listed, held]
  cases present written table shard id with
  | true => simp
  | false => simp

theorem same_records (a b : Store) (written rewritten : List LogEntry) (mirrors : a.Mirrors written)
    (mirrors' : b.Mirrors rewritten) (shape : a.SameShape b) (log : a.log = b.log)
    (agree : a.replicas ≠ 0 → ∀ table shard id, present written table shard id = present rewritten table shard id)
    (node : NodeId) (inside : node.index.toNat < a.nodes.toNat) (table : TableId) (shard : ShardId) :
    records (a.partition node) table shard = records (b.partition node) table shard := by
  apply SortedMap.ext
  intro id
  rw [mirrors.holding node inside, mirrors'.holding node (shape.nodes ▸ inside), ← same_shape_ring a b shape, log]
  by_cases owner : node ∈ a.ring shard
  · have copies : a.replicas ≠ 0 := by
      intro none
      rw [ring, none] at owner
      cases owner
    rw [if_pos owner, if_pos owner, agree copies]
  · rw [if_neg owner, if_neg owner]

theorem same_answers_iff (a b : Store) (written rewritten : List LogEntry) (mirrors : a.Mirrors written)
    (mirrors' : b.Mirrors rewritten) (shape : a.SameShape b) (log : a.log = b.log) :
    a.SameAnswers b ↔
      (a.replicas ≠ 0 → ∀ table shard id, present written table shard id = present rewritten table shard id) := by
  constructor
  · intro same copies table shard id
    by_cases counted : shard.toNat + (a.replicas.toNat - 1) < 2 ^ 64
    · cases owners : a.ring shard with
      | nil =>
          rw [ring, List.map_eq_nil_iff, List.range_eq_nil] at owners
          exact absurd (UInt32.toNat_inj.mp owners) copies
      | cons primary others =>
          obtain ⟨rows, read, listed⟩ := primary_ids a written mirrors table shard primary others owners counted
          obtain ⟨rows', read', listed'⟩ := primary_ids b rewritten mirrors' table shard primary others
            (same_shape_ring a b shape shard ▸ owners) (shape.replicas ▸ counted)
          have equal : rows = rows' := Except.ok.inj (read.symm.trans ((same.rows _ _ _ _).trans read'))
          rw [Bool.eq_iff_iff, ← listed, ← listed', equal]
    · have absent : present written table shard id = false :=
        Bool.eq_false_iff.mpr fun there => counted (present_counted a written mirrors table shard id there)
      have absent' : present rewritten table shard id = false :=
        Bool.eq_false_iff.mpr fun there =>
          counted (shape.replicas ▸ present_counted b rewritten mirrors' table shard id there)
      rw [absent, absent']
  · intro agree
    apply same_partitions_answers a b shape
    apply List.ext_getElem
    · rw [mirrors.shaped.partitioned, mirrors'.shaped.partitioned, shape.nodes]
    · intro i held held'
      have small : i < a.nodes.toNat := mirrors.shaped.partitioned ▸ held
      have index : (UInt32.ofNat i).toNat = i := UInt32.toNat_ofNat_of_lt' (Nat.lt_trans small a.nodes.toNat_lt)
      have alike := Partition.records_of_trimmed _ _ (mirrors.trimmed ⟨UInt32.ofNat i⟩) (mirrors'.trimmed ⟨UInt32.ofNat i⟩)
        (same_records a b written rewritten mirrors mirrors' shape log agree ⟨UInt32.ofNat i⟩ (index.symm ▸ small))
      rw [partition, partition, index, List.getElem?_eq_getElem held, List.getElem?_eq_getElem held'] at alike
      exact alike

theorem restore_replayed {codec : Codec} {forms : Forms} (coded : codec.Lawful) (formed : forms.Lawful) (store copy : Store)
    (log : List LogEntry) (counted : (encodeLog log codec forms).length < 2 ^ 64)
    (replayed : store.replay log = (.ok (), copy)) :
    store.restore (encodeLog log codec forms) codec forms = .ok copy := by
  unfold restore
  rw [decode_encode_log coded formed log counted]
  change Except.map _ (store.replay log).1 = _
  rw [replayed]
  rfl

-- The log tells everything but where a record went whose set fields are all deleted since: an update that cleared the
-- id and set those fields purges the record when it is replayed.
theorem replay_gives_back_iff (nodes : UInt32) (replicas : Nat) (width fresh later : UInt64) (opened : List LogEntry)
    (calls : List StoreCall) (store final : Store) (start : (make nodes replicas width fresh).replay opened = (.ok (), store))
    (done : StoreCall.performAll store calls = .ok final) :
    ∃ copy, (make nodes replicas width later).replay final.log = (.ok (), copy) ∧ copy.log = final.log ∧
      (∀ (codec : Codec) (forms : Forms), codec.Lawful → forms.Lawful → (encodeLog final.log codec forms).length < 2 ^ 64 →
        (make nodes replicas width later).restore (encodeLog final.log codec forms) codec forms = .ok copy) ∧
      (copy.SameAnswers final ↔ (final.replicas ≠ 0 → ∀ table shard id,
        present final.log table shard id = present (StoreCall.written opened calls) table shard id)) := by
  obtain ⟨begun, shape⟩ :=
    perform_all_mirrors _ store [] _ (make_mirrors nodes replicas width fresh) (replay_performs _ store opened start)
  rw [written_imports, List.nil_append] at begun
  obtain ⟨mirrors, onward⟩ := perform_all_mirrors store final opened calls begun done
  have shape := same_shape_trans _ _ _ shape onward
  have fits : ∀ entry ∈ final.log, (make nodes replicas width later).Fits entry := by
    intro entry member
    have known := mirrors.fits entry (.inl member)
    exact fits_same_shape final _ entry ⟨shape.nodes.symm, shape.replicas.symm, shape.width.symm⟩ known
  obtain ⟨copy, replayed, logged, mirrors', shape'⟩ :=
    replay_mirrors _ final.log (make_mirrors nodes replicas width later) fits
  have alike : copy.SameShape final :=
    ⟨shape'.nodes.symm.trans shape.nodes, shape'.replicas.symm.trans shape.replicas, shape'.width.symm.trans shape.width⟩
  have same : copy.log = final.log := logged
  refine ⟨copy, replayed, same, fun codec forms coded formed counted =>
    restore_replayed coded formed _ copy final.log counted replayed, ?_⟩
  rw [← alike.replicas]
  exact same_answers_iff copy final final.log (StoreCall.written opened calls) (same ▸ mirrors') mirrors alike same

def emptiedCalls : List StoreCall :=
  [.importRows ⟨⟨9⟩, 0, [⟨5, [], [("g", .int 1)]⟩]⟩, .importRows ⟨⟨9⟩, 0, [⟨5, ["_id"], [("f", .int 2)]⟩]⟩,
    .deleteField ⟨9⟩ "f"]

theorem emptied_update_told_apart : ∃ final copy, StoreCall.performAll (make 1 1 1048576 0) emptiedCalls = .ok final ∧
    (make 1 1 1048576 0).replay final.log = (.ok (), copy) ∧
      (make 1 1 1048576 0).restore (encodeLog final.log) = .ok copy ∧ ¬copy.SameAnswers final := by
  obtain ⟨copy, replayed, -, stored, same⟩ := replay_gives_back_iff 1 1 1048576 0 0 [] emptiedCalls _ _ rfl rfl
  refine ⟨_, copy, rfl, replayed, stored .compact .derived Codec.compact_lawful Forms.derived_lawful (by decide +kernel), ?_⟩
  intro alike
  have kept := same.mp alike (by decide) ⟨9⟩ 0 5
  cases kept

theorem emptied_update_purges : ∃ final copy, StoreCall.performAll (make 1 1 1048576 0) emptiedCalls = .ok final ∧
    (make 1 1 1048576 0).replay final.log = (.ok (), copy) ∧
      final.readShard none ⟨9⟩ 0 ["_id"] = .ok [⟨[.id 5]⟩] ∧ copy.readShard none ⟨9⟩ 0 ["_id"] = .ok [] :=
  ⟨_, _, rfl, rfl, rfl, rfl⟩

end Store

end ShardQuery
