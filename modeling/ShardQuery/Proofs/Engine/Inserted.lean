import ShardQuery.Proofs.Engine.Paired
import ShardQuery.Proofs.Statement.Written
import ShardQuery.Proofs.Store.Batches
import ShardQuery.Proofs.Transaction.Served
/-!
What an insert leaves. Main statement: all its rows, or those of the first shards where it was stopped, or nothing
where it could not begin; and no transaction of its own.
-/

set_option autoImplicit false

namespace ShardQuery

namespace Store

-- A store with the rows of an insertion, on all owners of the shards that it came to, and in the log.
structure Written (insertion : InsertPlan) (rows : List WrittenRow) (shards : List ShardId) (before after : Store) :
    Prop where
  shape : before.SameShape after
  records : after.tableContent insertion.table = rows.foldl .write (before.tableContent insertion.table)
  copies : ∀ id, ∀ node ∈ before.ring (shardOf id before.width),
    after.contentOn node insertion.table id = rows.foldl .write (before.contentOn node insertion.table) id
  others : ∀ (node : NodeId) (table : TableId) (shard : ShardId),
    (table = insertion.table → node ∈ before.ring shard → shard ∉ shards) →
      Store.records (after.partition node) table shard = Store.records (before.partition node) table shard
  logged : ∃ entries, after.log = before.log ++ entries ∧ List.Forall₂ (fun shard (entry : LogEntry) =>
    entry.table = insertion.table ∧ entry.shard = shard ∧ List.Forall₂ RowUpdate.Carries entry.updates
      (rows.filter fun row => shardOf row.id before.width == shard)) shards entries

end Store

namespace Engine

-- What becomes of an insertion whose rows are read, given the shards of its rows and which of them it may go on with.
inductive InsertEnds (passes : ShardId → Outcome Unit) (insertion : InsertPlan) (rows : List WrittenRow)
    (touched : List ShardId) (before after : Store) : Outcome Unit → Prop
  | completed (passed : ∀ shard ∈ touched, passes shard = .ok ())
      (written : Store.Written insertion rows touched before after) :
      InsertEnds passes insertion rows touched before after (.ok ())
  | stopped (done rest : List ShardId) (shard : ShardId) (e : EngineError) (split : touched = done ++ shard :: rest)
      (passed : ∀ shard ∈ done, passes shard = .ok ()) (stops : passes shard = .error e)
      (written : Store.Written insertion (rows.filter fun row => done.contains (shardOf row.id before.width)) done
        before after) :
      InsertEnds passes insertion rows touched before after (.error e)

section Imports

variable {table : TableId}

-- The batches are imported up to the first shard where the watch stops.
theorem import_shards_segment (watch : Watch) (batches : List Batch) (engine : Engine) (shaped : engine.store.Shaped)
    (fits : ∀ batch ∈ batches, engine.store.Fits ⟨table, batch.1, batch.2⟩) :
    ∃ done rest outcome store, batches = done ++ rest ∧
      (importShards watch table batches).perform engine = (outcome, { engine with store }) ∧
      Store.Imports table done engine.store store ∧ (∀ batch ∈ done, watch batch.1 engine.clock = .ok ()) ∧
      match outcome with
      | .ok _ => rest = []
      | .error e => ∃ batch others, rest = batch :: others ∧ watch batch.1 engine.clock = .error e := by
  induction batches generalizing engine with
  | nil => exact ⟨[], [], .ok (), engine.store, rfl, rfl, Store.imports_nothing shaped table, nofun, rfl⟩
  | cons batch batches ih =>
      obtain ⟨fitsFirst, fitsRest⟩ := List.forall_mem_cons.mp fits
      cases passes : watch batch.1 engine.clock with
      | error e =>
          exact ⟨[], batch :: batches, .error e, engine.store, rfl, import_shards_refused batch batches engine passes,
            Store.imports_nothing shaped table, nofun, batch, batches, rfl, passes⟩
      | ok _ =>
          have imported := Store.fits_import engine.store ⟨table, batch.1, batch.2⟩ true fitsFirst
          generalize (let applied := _; if true = true then Store.record applied _ else applied : Store) = first at imported
          obtain ⟨-, shape, -⟩ := Store.import_effect _ first _ true shaped imported
          have clock : ({ engine with store := first } : Engine).clock = engine.clock :=
            congrArg TransactionDesk.clock (Store.import_desk _ true imported)
          obtain ⟨done, rest, outcome, store, split, performed, imports, passed, halts⟩ :=
            ih { engine with store := first } (Store.import_shaped _ first _ true shaped imported)
              fun other among => Store.fits_same_shape _ _ _ shape (fitsRest other among)
          rw [clock] at passed halts
          exact ⟨batch :: done, rest, outcome, store, congrArg (batch :: ·) split,
            (import_shards_next batch batches engine passes imported).trans performed,
            Store.imports_next shaped batch imported imports, List.forall_mem_cons.mpr ⟨passes, passed⟩, halts⟩

end Imports

section Groups

variable {insertion : InsertPlan} {changes : List RowUpdate} {rows : List WrittenRow}
  (carry : List.Forall₂ RowUpdate.Carries changes rows) (width : UInt64)

-- The shards of the rows, in the order in which an insert comes to them.
def shardsOf (changes : List RowUpdate) : List ShardId := (RowUpdate.byShard width changes).entries.map (·.1)

theorem shards_ascend (changes : List RowUpdate) : (shardsOf width changes).Pairwise (· < ·) :=
  List.pairwise_map.mpr ((RowUpdate.byShard width changes).sorted.imp Std.compare_eq_lt.mp)

include carry

theorem mem_shards (shard : ShardId) : shard ∈ shardsOf width changes ↔ ∃ row ∈ rows, shardOf row.id width = shard := by
  rw [shardsOf, List.mem_map]
  constructor
  · rintro ⟨⟨shard, group⟩, listed, rfl⟩
    obtain ⟨change, among, own⟩ := RowUpdate.by_shard_some listed
    obtain ⟨row, among, carries⟩ := forall₂_origin carry.flip change among
    exact ⟨row, among, carries.id ▸ own⟩
  · rintro ⟨row, among, rfl⟩
    obtain ⟨change, among, carries⟩ := forall₂_origin carry row among
    have own : change ∈ changes.filter fun other => shardOf other.id width == shardOf row.id width :=
      List.mem_filter.mpr ⟨among, beq_iff_eq.mpr (carries.id ▸ rfl)⟩
    have found := RowUpdate.get?_by_shard width changes (shardOf row.id width)
    dsimp only at found
    rw [if_neg (mt List.isEmpty_iff.mp (List.ne_nil_of_mem own))] at found
    exact ⟨_, (SortedMap.get?_eq_some _ _ _).mp found, rfl⟩

variable {store after : Store} {done rest : List Batch} (covers : width = store.width)
  (split : (RowUpdate.byShard width changes).entries = done ++ rest)
  (imports : Store.Imports insertion.table done store after)

include split

omit carry in
-- The batches that were imported hold the updates of their shards.
theorem segment_updates (shard : ShardId) : Batch.updatesOf done shard =
    if shard ∈ done.map (·.1) then changes.filter (fun change => shardOf change.id width == shard) else [] := by
  have distinct := SortedMap.keys_nodup (RowUpdate.byShard width changes)
  rw [SortedMap.keys, split, List.map_append] at distinct
  refine Batch.updates_of_grouped (fun shard => changes.filter fun change => shardOf change.id width == shard)
    (List.nodup_append.mp distinct).1 (fun batch among => ?_) shard
  exact RowUpdate.by_shard_group width changes (split ▸ List.mem_append_left rest among)

-- Of one record, they have what the rows of their shards have.
theorem segment_rows (id : RecordId) (content : ShardContent) :
    (Batch.updatesOf done (shardOf id width)).foldl ShardContent.taken content id =
      (rows.filter fun row => (done.map (·.1)).contains (shardOf row.id width)).foldl .write content id := by
  rw [segment_updates width split]
  by_cases here : shardOf id width ∈ done.map (·.1)
  · rw [if_pos here, ShardContent.take_all_carried (RowUpdate.carry_filter carry fun id' => shardOf id' width == _)]
    refine ShardContent.write_all_alike rfl ?_
    rw [List.filter_filter, List.filter_filter]
    refine List.filter_congr fun row _ => ?_
    by_cases own : row.id = id
    · rw [own, BEq.rfl, BEq.rfl, List.contains_iff_mem.mpr here]
    · rw [beq_eq_false_iff_ne.mpr own, Bool.false_and, Bool.false_and]
  · rw [if_neg here]
    change ([] : List WrittenRow).foldl ShardContent.write content id = _
    refine ShardContent.write_all_alike rfl ?_
    rw [List.filter_nil, List.filter_filter, eq_comm, List.filter_eq_nil_iff]
    intro row _ both
    rw [Bool.and_eq_true, beq_iff_eq, List.contains_iff_mem] at both
    exact here (both.1 ▸ both.2)

include covers imports

theorem segment_written (copies : 0 < store.replicas.toNat) :
    Store.Written insertion (rows.filter fun row => (done.map (·.1)).contains (shardOf row.id width)) (done.map (·.1))
      store after := by
  subst covers
  have owned (id : RecordId) (node : NodeId) (owner : node ∈ store.ring (shardOf id store.width)) :
      after.contentOn node insertion.table id =
        (rows.filter fun row => (done.map (·.1)).contains (shardOf row.id store.width)).foldl .write
          (store.contentOn node insertion.table) id := by
    rw [Store.contentOn, ← imports.shape.width, Store.imports_content_at imports owner, segment_rows carry _ split]
    exact ShardContent.write_all_alike rfl rfl
  refine ⟨imports.shape, ?_, owned, ?_, ?_⟩
  · funext id
    obtain ⟨primary, answers, owner⟩ := Store.primary_some copies (shardOf id store.width)
    have answers' : after.primary? (shardOf id after.width) = some primary := by
      rw [← imports.shape.width, Store.primary_same_shape imports.shape, answers]
    rw [Store.table_content_on answers', owned id primary owner]
    exact ShardContent.write_all_alike (Store.table_content_on answers).symm rfl
  · intro node table shard elsewhere
    refine Store.imports_spare imports fun same owner => ?_
    rw [segment_updates _ split, if_neg (elsewhere same owner)]
  · refine ⟨_, imports.log, ?_⟩
    rw [List.forall₂_map_left_iff, List.forall₂_map_right_iff, List.forall₂_same]
    intro batch among
    refine ⟨rfl, rfl, ?_⟩
    have own := RowUpdate.by_shard_group store.width changes (split ▸ List.mem_append_left rest among)
    have same : (rows.filter fun row => (done.map (·.1)).contains (shardOf row.id store.width)).filter
        (fun row => shardOf row.id store.width == batch.1) =
          rows.filter fun row => shardOf row.id store.width == batch.1 := by
      rw [List.filter_filter]
      refine List.filter_congr fun row _ => ?_
      by_cases here : shardOf row.id store.width = batch.1
      · rw [here, BEq.rfl, List.contains_iff_mem.mpr (List.mem_map_of_mem among)]
        rfl
      · rw [beq_eq_false_iff_ne.mpr here, Bool.false_and]
    rw [same]
    dsimp only
    rw [own]
    exact RowUpdate.carry_filter carry fun id => shardOf id store.width == batch.1

end Groups

section Inserts

variable {watch : Watch} {insertion : InsertPlan} {engine : Engine} {rows : List WrittenRow}

-- The owners of the shards of all rows can be counted.
def Counted (store : Store) (rows : List WrittenRow) : Prop :=
  ∀ row ∈ rows, (shardOf row.id store.width).toNat + (store.replicas.toNat - 1) < 2 ^ 64

theorem import_insert_ends (watch : Watch) (engine : Engine) (regular : insertion.Regular) (shaped : engine.store.Shaped)
    (copies : 0 < engine.store.replicas.toNat) (width : engine.config.shardWidth = engine.store.width)
    (covers : engine.store.width ≠ 0) (reads : List.Forall₂ insertion.Reads insertion.rows rows)
    (counted : Counted engine.store rows) :
    ∃ touched outcome store, touched.Pairwise (· < ·) ∧
      (∀ shard, shard ∈ touched ↔ ∃ row ∈ rows, shardOf row.id engine.store.width = shard) ∧
      (importInsert watch insertion).perform engine = (outcome, { engine with store }) ∧
      store.desk = engine.store.desk ∧
      InsertEnds (watch · engine.clock) insertion rows touched engine.store store outcome := by
  obtain ⟨changes, made, carry⟩ := InsertPlan.updates_carry regular covers reads
  have fits (batch : Batch) (among : batch ∈ (RowUpdate.byShard engine.store.width changes).entries) :
      engine.store.Fits ⟨insertion.table, batch.1, batch.2⟩ := by
    obtain ⟨row, member, own⟩ := (mem_shards carry _ batch.1).mp (List.mem_map_of_mem among)
    refine ⟨fun change inside => ?_, own ▸ counted row member⟩
    dsimp only at inside
    rw [RowUpdate.by_shard_group engine.store.width changes among] at inside
    exact beq_iff_eq.mp (List.mem_filter.mp inside).2
  obtain ⟨done, rest, outcome, store, split, performed, imports, passed, halts⟩ :=
    import_shards_segment watch _ engine shaped fits
  have written := segment_written carry engine.store.width rfl split imports copies
  have begun : (importInsert watch insertion).perform engine = (outcome, { engine with store }) := by
    rw [importInsert, Step.perform_bind, Step.perform_get]
    dsimp only
    rw [width, made]
    exact performed
  have touched := mem_shards carry engine.store.width
  refine ⟨_, outcome, store, shards_ascend _ changes, touched, begun, imports.desk, ?_⟩
  rw [shardsOf, split] at touched ⊢
  have goes (shard : ShardId) (member : shard ∈ done.map (·.1)) : watch shard engine.clock = .ok () := by
    obtain ⟨batch, among, rfl⟩ := List.mem_map.mp member
    exact passed batch among
  cases outcome with
  | ok _ =>
      obtain rfl : rest = [] := halts
      rw [List.append_nil] at touched ⊢
      have all : (rows.filter fun row => (done.map (·.1)).contains (shardOf row.id engine.store.width)) = rows := by
        rw [List.filter_eq_self]
        exact fun row among => List.contains_iff_mem.mpr ((touched _).mpr ⟨row, among, rfl⟩)
      rw [all] at written
      exact .completed goes written
  | error e =>
      obtain ⟨batch, others, rfl, stops⟩ := halts
      rw [List.map_append, List.map_cons]
      exact .stopped _ _ batch.1 e rfl goes stops written

theorem written_desk {shards : List ShardId} {before after : Store} (desk desk' : TransactionDesk)
    (written : Store.Written insertion rows shards { before with desk } after) :
    Store.Written insertion rows shards before { after with desk := desk' } :=
  ⟨⟨written.shape.nodes, written.shape.replicas, written.shape.width⟩, written.records, written.copies, written.others,
    written.logged⟩

theorem insert_ends_desk {passes : ShardId → Outcome Unit} {touched : List ShardId} {before after : Store}
    {outcome : Outcome Unit} (desk desk' : TransactionDesk)
    (ends : InsertEnds passes insertion rows touched { before with desk } after outcome) :
    InsertEnds passes insertion rows touched before { after with desk := desk' } outcome := by
  cases ends with
  | completed passed written => exact .completed passed (written_desk desk desk' written)
  | stopped done rest shard e split passed stops written =>
      exact .stopped done rest shard e split passed stops (written_desk desk desk' written)

theorem perform_at_desk {α : Type} {step : Step TransactionDesk α} {outcome : Outcome α} {desk : TransactionDesk}
    (performed : step.perform engine.store.desk = (outcome, desk)) :
    (atDesk step).perform engine = (outcome, { engine with store := { engine.store with desk } }) := by
  rw [atDesk, Step.perform_onPart, performed]

-- How an insert begins.
abbrev starting (engine : Engine) : Step TransactionDesk Transaction :=
  TransactionDesk.start none engine.config.insertTimeout false engine.config.requestTimeout

theorem insert_refused {begun : TransactionDesk} {e : EngineError}
    (refused : engine.starting.perform engine.store.desk = (.error e, begun)) :
    (insert watch insertion).perform engine =
      (.error e, { engine with store := { engine.store with desk := begun } }) := by
  rw [insert, Step.perform_bind, Step.perform_get]
  exact Step.perform_bind_error (perform_at_desk refused)

-- The transaction ends with the import, whatever that comes to.
theorem insert_finished {txn ended : Transaction} {begun after : TransactionDesk} {store : Store} {outcome : Outcome Unit}
    (started : engine.starting.perform engine.store.desk = (.ok txn, begun))
    (imported : (importInsert watch insertion).perform { engine with store := { engine.store with desk := begun } } =
      (outcome, { engine with store }))
    (told : ∀ cause, outcome ≠ .error (.brokeOff cause))
    (finished : (TransactionDesk.finish txn.id).perform store.desk = (.ok ended, after)) :
    (insert watch insertion).perform engine = (outcome, { engine with store := { store with desk := after } }) := by
  have attempted : (importInsert watch insertion).attempt.perform
      { engine with store := { engine.store with desk := begun } } = (.ok outcome, { engine with store }) := by
    rw [Step.perform_attempt, imported]
  have ending : (atDesk (TransactionDesk.finish txn.id)).attempt.perform { engine with store } =
      (.ok (.ok ended), { engine with store := { store with desk := after } }) := by
    rw [Step.perform_attempt, perform_at_desk finished]
  rw [insert, Step.perform_bind, Step.perform_get]
  dsimp only
  rw [Step.perform_bind_ok (perform_at_desk started), Step.perform_bind_ok attempted]
  split
  · rename_i cause
    exact absurd rfl (told cause)
  · rw [Step.perform_bind_ok ending, Step.perform_bind, Step.perform_ofOutcome]
    cases outcome with
    | ok _ => rfl
    | error e => rfl

-- An engine that has nothing but other clients at its desk.
def Unwritten (before after : Engine) : Prop := ∃ desk, after = { before with store := { before.store with desk } }

-- An import that does not break off ends with the transaction it began with.
theorem insert_rests (sound : engine.store.desk.Sound) {txn : Transaction}
    (started : (engine.starting.perform engine.store.desk).1 = .ok txn) (imported : Outcome Unit → Store → Prop)
    (imports : ∀ desk : TransactionDesk, desk.clock = engine.clock → ∃ outcome store,
      (importInsert watch insertion).perform { engine with store := { engine.store with desk } } =
        (outcome, { engine with store }) ∧ store.desk = desk ∧ imported outcome store ∧
          ∀ cause, outcome ≠ .error (.brokeOff cause)) :
    ∃ outcome store desk, (insert watch insertion).perform engine =
        (outcome, { engine with store := { store with desk } }) ∧
      imported outcome store ∧ engine.store.desk.Rests desk := by
  obtain ⟨outcome, begun, performed, clock, ends⟩ :=
    TransactionDesk.start_ends sound engine.config.insertTimeout engine.config.requestTimeout
  obtain rfl : outcome = .ok txn := (congrArg Prod.fst performed).symm.trans started
  obtain ⟨after, finished, rests⟩ := ends
  obtain ⟨outcome, store, done, desk, holds, told⟩ := imports begun clock
  exact ⟨outcome, store, after, insert_finished performed done told (desk.symm ▸ finished), holds, rests⟩

-- Where one row is not read, none is imported.
theorem insert_unread (watch : Watch) (sound : engine.store.desk.Sound)
    (width : engine.config.shardWidth = engine.store.width) (covers : engine.store.width ≠ 0)
    (regular : insertion.Regular) {txn : Transaction}
    (started : (engine.starting.perform engine.store.desk).1 = .ok txn)
    (unread : ¬ ∃ rows, List.Forall₂ insertion.Reads insertion.rows rows) :
    ∃ e desk, (insert watch insertion).perform engine = (.error e, { engine with store := { engine.store with desk } }) ∧
      engine.store.desk.Rests desk := by
  have told := InsertPlan.updates_told regular covers
  cases made : insertion.updates engine.store.width with
  | ok changes => exact absurd (InsertPlan.updates_read regular made) unread
  | error e =>
      rw [made] at told
      have imports (desk : TransactionDesk) : (importInsert watch insertion).perform
          { engine with store := { engine.store with desk } } =
            (.error e, { engine with store := { engine.store with desk } }) := by
        rw [importInsert, Step.perform_bind, Step.perform_get]
        dsimp only
        rw [width, made]
        rfl
      obtain ⟨outcome, store, desk, ended, ⟨rfl, desk', rfl⟩, rests⟩ := insert_rests sound started
        (fun outcome store => outcome = .error e ∧ ∃ desk, store = { engine.store with desk })
        fun desk _ => ⟨_, _, imports desk, rfl, ⟨rfl, desk, rfl⟩, fun cause same => told cause (Except.error.inj same)⟩
      exact ⟨e, desk, ended, rests⟩

theorem insert_read (sound : engine.store.desk.Sound) (shaped : engine.store.Shaped)
    (copies : 0 < engine.store.replicas.toNat) (width : engine.config.shardWidth = engine.store.width)
    (covers : engine.store.width ≠ 0) (regular : insertion.Regular)
    (told : ∀ shard clock e, watch shard clock = .error e → e = .cancelled ∨ e = .timeout) {txn : Transaction}
    (started : (engine.starting.perform engine.store.desk).1 = .ok txn)
    (reads : List.Forall₂ insertion.Reads insertion.rows rows) (counted : Counted engine.store rows) :
    ∃ touched outcome store, touched.Pairwise (· < ·) ∧
      (∀ shard, shard ∈ touched ↔ ∃ row ∈ rows, shardOf row.id engine.store.width = shard) ∧
      (insert watch insertion).perform engine = (outcome, { engine with store }) ∧
      InsertEnds (watch · engine.clock) insertion rows touched engine.store store outcome ∧
      engine.store.desk.Rests store.desk := by
  obtain ⟨outcome, store, desk, ended, ⟨touched, ascend, members, ends⟩, rests⟩ := insert_rests sound started
    (fun outcome store => ∃ touched, touched.Pairwise (· < ·) ∧
      (∀ shard, shard ∈ touched ↔ ∃ row ∈ rows, shardOf row.id engine.store.width = shard) ∧
      ∀ desk, InsertEnds (watch · engine.clock) insertion rows touched engine.store { store with desk } outcome)
    fun desk clock => by
      obtain ⟨touched, outcome, store, ascend, members, performed, kept, ends⟩ :=
        import_insert_ends watch { engine with store := { engine.store with desk } } regular
          ⟨shaped.peopled, shaped.enough, shaped.partitioned⟩ copies width covers reads counted
      have same : ({ engine with store := { engine.store with desk } } : Engine).clock = engine.clock := clock
      rw [same] at ends
      refine ⟨outcome, store, performed, kept, ⟨touched, ascend, members, fun desk' => insert_ends_desk desk desk' ends⟩,
        fun cause broke => ?_⟩
      cases ends with
      | completed => cases broke
      | stopped _ _ shard e _ _ stops _ =>
          cases broke
          rcases told shard engine.clock _ stops with other | other
          · cases other
          · cases other
  exact ⟨touched, outcome, { store with desk }, ascend, members, ended, ends desk, rests⟩

theorem insert_written (engine : Engine) (sound : engine.store.desk.Sound) (shaped : engine.store.Shaped)
    (copies : 0 < engine.store.replicas.toNat) (width : engine.config.shardWidth = engine.store.width)
    (covers : engine.store.width ≠ 0) (scope : Scope) (gate : DenyList) (name : String) (columns : List String)
    (values : List (List Expr)) (table : Table) (found : scope.table name = .ok table) (apart : table.Apart)
    (insertion : InsertPlan) (compiled : (Statement.insert name columns values).compile scope gate = .ok (.insert insertion))
    (watch : Watch) (told : ∀ shard clock e, watch shard clock = .error e → e = .cancelled ∨ e = .timeout)
    (counted : ∀ rows, List.Forall₂ insertion.Reads insertion.rows rows → Counted engine.store rows) :
    let started := (engine.starting.perform engine.store.desk).1
    let outcome := ((insert watch insertion).perform engine).1
    let after := ((insert watch insertion).perform engine).2
    (∀ e, started = .error e → outcome = .error e ∧ engine.Unwritten after) ∧
    ((¬ ∃ rows, List.Forall₂ insertion.Reads insertion.rows rows) →
      (∃ e, outcome = .error e) ∧ engine.Unwritten after) ∧
    (∀ txn rows, started = .ok txn → List.Forall₂ insertion.Reads insertion.rows rows →
      after = { engine with store := after.store } ∧ ∃ touched, touched.Pairwise (· < ·) ∧
        (∀ shard, shard ∈ touched ↔ ∃ row ∈ rows, shardOf row.id engine.store.width = shard) ∧
        InsertEnds (watch · engine.clock) insertion rows touched engine.store after.store outcome) ∧
    engine.store.desk.Rests after.store.desk := by
  intro started outcome after
  have regular := Statement.compiled_regular found apart compiled
  cases begins : started with
  | error e =>
      obtain ⟨refused, begun, performed, -, rests⟩ :=
        TransactionDesk.start_ends sound engine.config.insertTimeout engine.config.requestTimeout
      obtain rfl : refused = .error e := (congrArg Prod.fst performed).symm.trans begins
      have ended : (insert watch insertion).perform engine = _ := insert_refused performed
      have unwritten : engine.Unwritten after := ⟨begun, congrArg Prod.snd ended⟩
      have failed : outcome = .error e := congrArg Prod.fst ended
      refine ⟨fun e' same => ⟨failed.trans (congrArg _ (Except.error.inj same)), unwritten⟩,
        fun _ => ⟨⟨e, failed⟩, unwritten⟩, nofun, ?_⟩
      rw [show after = _ from congrArg Prod.snd ended]
      exact rests
  | ok txn =>
      by_cases readable : ∃ rows, List.Forall₂ insertion.Reads insertion.rows rows
      · have written (rows : List WrittenRow) (reads : List.Forall₂ insertion.Reads insertion.rows rows) :=
          insert_read sound shaped copies width covers regular told begins reads (counted rows reads)
        refine ⟨nofun, fun unread => absurd readable unread, fun _ rows _ reads => ?_, ?_⟩
        · obtain ⟨touched, ended, store, ascend, members, performed, ends, -⟩ := written rows reads
          have left : after = { engine with store } := congrArg Prod.snd performed
          rw [left, show outcome = ended from congrArg Prod.fst performed]
          exact ⟨rfl, touched, ascend, members, ends⟩
        · obtain ⟨rows, reads⟩ := readable
          obtain ⟨_, _, store, -, -, performed, -, rests⟩ := written rows reads
          rw [show after = { engine with store } from congrArg Prod.snd performed]
          exact rests
      · obtain ⟨e, desk, ended, rests⟩ := insert_unread watch sound width covers regular begins readable
        have unwritten : engine.Unwritten after := ⟨desk, congrArg Prod.snd ended⟩
        refine ⟨nofun, fun _ => ⟨⟨e, congrArg Prod.fst ended⟩, unwritten⟩,
          fun _ rows _ reads => absurd ⟨rows, reads⟩ readable, ?_⟩
        rw [show after = _ from congrArg Prod.snd ended]
        exact rests

end Inserts

section Stock

def stockFields : List Field := [⟨idColumn, .id, false⟩, ⟨"N", .int, true⟩]

def stockTable : Table := ⟨"stock", .ofName (.ofName "main") "stock", .ofName "main", stockFields, none⟩

-- A new engine with one table.
def stocking (config : Config) (nodes : UInt32) : Engine :=
  (Step.perform (do createDatabase "main" .empty; createTable "main" "stock" stockFields none) (make config nodes)).2

def stockScope (engine : Engine) : Scope := ⟨engine.catalog, "main", none⟩

def stockInsert (given : List (RecordId × Value)) : Statement :=
  .insert "stock" [idColumn, "n"] (given.map fun row => [.literal (.id row.1), .literal row.2])

def stockInsertion (given : List (RecordId × Value)) : InsertPlan :=
  ⟨stockTable.id, "stock", [idColumn, "N"], [.id, .int], given.map fun row => [.literal (.id row.1), .literal row.2]⟩

def stockRows (given : List (RecordId × Value)) : List WrittenRow :=
  given.map fun row => ⟨row.1, [(idColumn, .id row.1), ("N", row.2)]⟩

theorem stock_reads (given : List (RecordId × Value)) (numbers : ∀ row ∈ given, row.2.coerce .int = .ok row.2) :
    List.Forall₂ (stockInsertion given).Reads (stockInsertion given).rows (stockRows given) := by
  rw [stockInsertion, stockRows, List.forall₂_map_left_iff, List.forall₂_map_right_iff, List.forall₂_same]
  intro row among
  exact ⟨.cons ⟨rfl, _, rfl, rfl⟩ (.cons ⟨rfl, _, rfl, numbers row among⟩ .nil), _, List.mem_cons_self,
    Text.same_refl idColumn, rfl⟩

-- Two nodes that both have every shard of ten ids.
def bothNodes : Engine := stocking { Config.standard with shardWidth := 10, replicas := 2 } 2

def stopsAtTwo : Watch := fun shard _ => if shard = 2 then .error .cancelled else .ok ()

-- The first record is made and loses its number again, and the shard of the second one is not come to.
def stockGiven : List (RecordId × Value) := [(1, .int 4), (25, .int 7), (12, .int 9), (1, .null)]

theorem stock_stopped :
    let ended := (insert stopsAtTwo (stockInsertion stockGiven)).perform bothNodes
    ended.1 = .error .cancelled ∧
    (∃ touched, touched.Pairwise (· < ·) ∧
      (∀ shard, shard ∈ touched ↔ ∃ row ∈ stockRows stockGiven, shardOf row.id bothNodes.store.width = shard) ∧
      InsertEnds (stopsAtTwo · bothNodes.clock) (stockInsertion stockGiven) (stockRows stockGiven) touched
        bothNodes.store ended.2.store (.error .cancelled)) ∧
    bothNodes.store.desk.Rests ended.2.store.desk ∧
    ([1, 12, 25].map fun id => (ended.2.store.tableContent stockTable.id id).map (· "n")) =
      [some none, some (some (.int 9)), none] := by
  intro ended
  have stopped : ended.1 = .error .cancelled := by decide +kernel
  have found : (stockScope bothNodes).table "stock" = .ok stockTable := by decide +kernel
  have told (shard : ShardId) (clock : Nat) (e : EngineError) (stops : stopsAtTwo shard clock = .error e) :
      e = .cancelled ∨ e = .timeout := by
    rw [stopsAtTwo] at stops
    split at stops
    · exact .inl (Except.error.inj stops).symm
    · cases stops
  obtain ⟨-, -, ends, rests⟩ := insert_written bothNodes (TransactionDesk.opening_sound 0) (Store.make_shaped 2 2 10 0)
    (by decide) rfl (by decide) (stockScope bothNodes) .allowAll "stock" _ _ stockTable found (by decide)
    (stockInsertion stockGiven) (show (stockInsert stockGiven).compile _ _ = _ from rfl) stopsAtTwo told
    fun _ _ row _ => Store.shard_counted (by decide) row.id _
  obtain ⟨-, written⟩ := ends _ _ rfl (stock_reads stockGiven (by decide))
  rw [show ((insert stopsAtTwo (stockInsertion stockGiven)).perform bothNodes).1 = _ from stopped] at written
  exact ⟨stopped, written, rests, by decide +kernel⟩

-- A count of replicas that is cut to none.
def noCopies : Engine := stocking { Config.standard with replicas := 4294967296 } 1

-- Shards of one id, the last of which has no second owner that could be counted.
def singleIds : Engine := stocking { Config.standard with shardWidth := 1, replicas := 2 } 2

def neverStops : Watch := fun _ _ => .ok ()

theorem owners_missed :
    (noCopies.config.validate = .ok () ∧
      (stockInsert [(1, .int 4)]).compile (stockScope noCopies) .allowAll = .ok (.insert (stockInsertion [(1, .int 4)])) ∧
      let ended := (insert neverStops (stockInsertion [(1, .int 4)])).perform noCopies
      ended.1 = .ok () ∧ (ended.2.store.tableContent stockTable.id 1).isSome = false ∧
        ((stockRows [(1, .int 4)]).foldl .write (noCopies.store.tableContent stockTable.id) 1).isSome = true) ∧
    (singleIds.config.validate = .ok () ∧
      (stockInsert [(18446744073709551615, .int 4)]).compile (stockScope singleIds) .allowAll =
        .ok (.insert (stockInsertion [(18446744073709551615, .int 4)])) ∧
      let ended := (insert neverStops (stockInsertion [(18446744073709551615, .int 4)])).perform singleIds
      ended.1 = .error (.brokeOff .sumTooLarge) ∧ ¬ singleIds.store.desk.Rests ended.2.store.desk) := by
  refine ⟨⟨by decide, rfl, by decide +kernel, by decide +kernel, by decide +kernel⟩, by decide, rfl, by decide +kernel,
    fun rests => ?_⟩
  have live := rests.live ⟨0⟩
  exact absurd live (by decide +kernel)

end Stock

end Engine

end ShardQuery
