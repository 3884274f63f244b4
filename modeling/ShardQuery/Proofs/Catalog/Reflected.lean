import Mathlib.Data.List.Nodup
import ShardQuery.Proofs.Catalog.History
/-!
What look-ups and listings give after any changes. Main statement: where the ids of the names in use are apart, these
are the databases and tables that the changes made and have not dropped since, as the changes left them; what a table
belongs to is there, and a change that fails changes nothing.
-/

set_option autoImplicit false

namespace ShardQuery

namespace Text.Hex

theorem encode_length (bytes : Bytes) : (encode bytes).toList.length = 2 * bytes.length := by
  rw [encode, String.toList_ofList]
  induction bytes with
  | nil => rfl
  | cons byte rest ih =>
      rw [List.flatMap_cons, List.length_append, ih, List.length_cons]
      change 2 + _ = _
      omega

theorem of_word_length (w : UInt64) : (ofWord w).toList.length = 16 := by
  rw [ofWord, encode_length, List.length_reverse, Bytes.word64, Bytes.little_length]

theorem of_word_inj {a b : UInt64} (same : ofWord a = ofWord b) : a = b := by
  have bytes := congrArg decode? same
  rw [ofWord, ofWord, decode_encode, decode_encode] at bytes
  exact Bytes.word64_inj (List.reverse_injective (Option.some.inj bytes))

end Text.Hex

theorem Table.key_id {a b : Table} (same : a.key = b.key) : a.id = b.id := by
  have parts (table : Table) : table.key = "tbl__" ++ table.database.text ++ "__" ++ table.id.text := rfl
  rw [parts, parts] at same
  have chars := congrArg String.toList same
  simp only [String.toList_append, List.append_assoc, List.append_cancel_left_eq] at chars
  have wide (id : DatabaseId) : id.text.toList.length = 16 := Text.Hex.of_word_length id.code
  have ends := (List.append_inj chars (by rw [wide, wide])).2
  have codes := Text.Hex.of_word_inj (String.toList_inj.mp (List.append_cancel_left ends))
  cases hA : a.id
  cases hB : b.id
  rw [hA, hB] at codes
  exact congrArg TableId.mk codes

theorem listed_by_name {α : Type} (name : α → String) (items : List α) (once : items.Nodup)
    (apart : ∀ a ∈ items, ∀ b ∈ items, name a = name b → a = b) :
    (items.mergeSort fun a b => decide (name a ≤ name b)).Pairwise (name · < name ·) := by
  have ordered : (items.mergeSort fun a b => decide (name a ≤ name b)).Pairwise (name · ≤ name ·) := by
    refine (List.pairwise_mergeSort ?_ ?_ items).imp of_decide_eq_true
    · exact fun a b c below above =>
        decide_eq_true (String.le_trans (of_decide_eq_true below) (of_decide_eq_true above))
    · exact fun a b => (Bool.or_eq_true _ _).mpr ((String.le_total (name a) (name b)).imp decide_eq_true decide_eq_true)
  have different := (List.mergeSort_perm items fun a b => decide (name a ≤ name b)).nodup_iff.mpr once
  refine (ordered.and different).imp_of_mem fun {a b} listed listed' pair => String.not_le.mp fun above => ?_
  exact pair.2 (apart a (List.mem_mergeSort.mp listed) b (List.mem_mergeSort.mp listed') (String.le_antisymm pair.1 above))

-- What is filed under its own id is listed once.
theorem SortedMap.items_filed {κ ν : Type} [Ord κ] [Std.TransOrd κ] [Std.LawfulEqOrd κ] (map : SortedMap κ ν) (id : ν → κ)
    (filed : ∀ key item, map.get? key = some item → id item = key) :
    map.items.Nodup ∧ ∀ item, item ∈ map.items ↔ map.get? (id item) = some item := by
  have ids : map.items.map id = map.keys := by
    rw [items, keys, List.map_map]
    exact List.map_congr_left fun entry listed => filed entry.1 entry.2 ((map.get?_eq_some entry.1 entry.2).mpr listed)
  refine ⟨List.Nodup.of_map id (ids ▸ map.keys_nodup), fun item => ?_⟩
  rw [mem_items]
  constructor
  · rintro ⟨key, held⟩
    rwa [filed key item held]
  · intro held
    exact ⟨id item, held⟩

namespace Catalog

-- The look-ups and listings are those of the nested catalog.
structure Reflects (names : List String) (catalog : Catalog) (nested : NestedCatalog) : Prop extends Derived catalog where
  database_by_id : ∀ id database, catalog.database? id = .ok database ↔ nested.HasDatabase database ∧ database.id = id
  table_by_id : ∀ id table, catalog.table? id = .ok table ↔ nested.HasTable table ∧ table.id = id
  table_by_key : ∀ key table, catalog.tableKeyed key = .ok table ↔ nested.HasTable table ∧ table.key = key
  database_by_name : ∀ name, Text.lower name ∈ names.map Text.lower →
    catalog.databaseNamed name = (nested.database name).map (·.record)
  table_by_name : ∀ owner name, Text.lower owner ∈ names.map Text.lower → Text.lower name ∈ names.map Text.lower →
    catalog.tableNamed owner name = nested.database owner >>= fun database => (database.table name).map (·.record database)
  databases_listed : catalog.databaseList.Pairwise (·.name < ·.name) ∧
    ∀ database, database ∈ catalog.databaseList ↔ nested.HasDatabase database
  tables_listed : ∀ owner, Text.lower owner ∈ names.map Text.lower → ∀ database, nested.database owner = .ok database →
    ∃ tables, catalog.tableList owner = .ok tables ∧ tables.Pairwise (·.name < ·.name) ∧
      ∀ table, table ∈ tables ↔ ∃ key kept, database.tables.get? key = some kept ∧ table = kept.record database
  tables_missing : ∀ owner, Text.lower owner ∈ names.map Text.lower → ∀ cause, nested.database owner = .error cause →
    catalog.tableList owner = .error cause

section Content

variable {names : List String} {catalog : Catalog} {nested : NestedCatalog} {owner : String} {id : DatabaseId}
  {database : Database} {table : Table} (apart : Apart names) (tracks : catalog.Tracks names nested)

include tracks

theorem has_database : catalog.databases.get? id = some database ↔ nested.HasDatabase database ∧ database.id = id := by
  rw [tracks.databases]
  constructor
  · rintro ⟨key, same, held⟩
    obtain ⟨kept, found, rfl⟩ := Option.map_eq_some_iff.mp held
    exact ⟨⟨key, held⟩, (record_id tracks.keyed found).trans same⟩
  · rintro ⟨⟨key, held⟩, same⟩
    obtain ⟨kept, found, rfl⟩ := Option.map_eq_some_iff.mp held
    exact ⟨key, (record_id tracks.keyed found).symm.trans same, held⟩

-- Where a table is, its id and the id of its database are those of the place.
theorem table_placed {place : String × String} (held : nested.tableAt place = some table) :
    ∃ database kept, nested.get? place.1 = some database ∧ database.tables.get? place.2 = some kept ∧
      table = kept.record database ∧ table.id = .ofKeys place ∧ table.database = .ofKey place.1 := by
  obtain ⟨owner, name⟩ := place
  obtain ⟨database, found, held⟩ := Option.bind_eq_some_iff.mp held
  obtain ⟨kept, found', rfl⟩ := Option.map_eq_some_iff.mp held
  have own : DatabaseId.ofName database.name = .ofKey owner := record_id tracks.keyed found
  have named : Text.lower kept.name = name := (tracks.keyed.tables _ database found _ kept found').1
  refine ⟨database, kept, found, found', rfl, ?_, own⟩
  rw [NestedTable.record, own, ← named]
  rfl

theorem has_table {id : TableId} :
    catalog.tables.get? id = some table ↔ nested.HasTable table ∧ table.id = id := by
  rw [tracks.tables]
  constructor
  · rintro ⟨place, same, held⟩
    obtain ⟨_, _, _, _, _, own, _⟩ := table_placed tracks held
    exact ⟨⟨place, held⟩, own.trans same⟩
  · rintro ⟨⟨place, held⟩, same⟩
    obtain ⟨_, _, _, _, _, own, _⟩ := table_placed tracks held
    exact ⟨place, own.symm.trans same, held⟩

theorem table_owned (held : nested.HasTable table) :
    ∃ database, catalog.databases.get? table.database = some database := by
  obtain ⟨place, held⟩ := held
  obtain ⟨database, kept, found, _, _, _, own⟩ := table_placed tracks held
  refine ⟨database.record, (has_database tracks).mpr ⟨⟨place.1, ?_⟩, ?_⟩⟩
  · rw [NestedCatalog.databaseAt, found]
    rfl
  · rw [own]
    exact record_id tracks.keyed found

theorem database_filed : catalog.databases.items.Nodup ∧
    ∀ database, database ∈ catalog.databases.items ↔ nested.HasDatabase database := by
  have filed := catalog.databases.items_filed Database.id fun id database held => ((has_database tracks).mp held).2
  exact ⟨filed.1, fun database => (filed.2 database).trans ((has_database tracks).trans (and_iff_left rfl))⟩

theorem table_filed : catalog.tables.items.Nodup ∧ ∀ table, table ∈ catalog.tables.items ↔ nested.HasTable table := by
  have filed := catalog.tables.items_filed Table.id fun id table held => ((has_table tracks).mp held).2
  exact ⟨filed.1, fun table => (filed.2 table).trans ((has_table tracks).trans (and_iff_left rfl))⟩

theorem table_keyed {key : String} : catalog.tableKeyed key = .ok table ↔ nested.HasTable table ∧ table.key = key := by
  have listed := (table_filed tracks).2
  rw [tableKeyed]
  cases search : catalog.tables.items.find? (·.key == key) with
  | none =>
      have missing := List.find?_eq_none.mp search
      simp only [listed, beq_iff_eq] at missing
      exact iff_of_false nofun fun there => missing table there.1 there.2
  | some other =>
      have keyed : other.key = key := by simpa using List.find?_some search
      have there := (listed other).mp (List.mem_of_find?_eq_some search)
      constructor
      · intro found
        cases found
        exact ⟨there, keyed⟩
      · rintro ⟨held, same⟩
        have found := (has_table tracks).mpr ⟨held, rfl⟩
        rw [← Table.key_id (keyed.trans same.symm), (has_table tracks).mpr ⟨there, rfl⟩] at found
        exact congrArg Except.ok (Option.some.inj found)

theorem databases_listed : catalog.databaseList.Pairwise (·.name < ·.name) ∧
    ∀ database, database ∈ catalog.databaseList ↔ nested.HasDatabase database := by
  have listed := database_filed tracks
  refine ⟨listed_by_name Database.name _ listed.1 fun a among b among' same => ?_, fun database => ?_⟩
  · obtain ⟨key, held⟩ := (listed.2 a).mp among
    obtain ⟨key', held'⟩ := (listed.2 b).mp among'
    obtain ⟨kept, found, rfl⟩ := Option.map_eq_some_iff.mp held
    obtain ⟨kept', found', rfl⟩ := Option.map_eq_some_iff.mp held'
    have one : key = key' := by
      rw [← (tracks.keyed.databases key kept found).1, ← (tracks.keyed.databases key' kept' found').1]
      exact congrArg Text.lower same
    rw [one, held'] at held
    exact (Option.some.inj held).symm
  · rw [databaseList, List.mem_mergeSort, listed.2]

include apart

-- The tables of a database are those with its id.
theorem tables_within {key : String} {database : NestedDatabase} (held : nested.get? key = some database) :
    nested.HasTable table ∧ table.database = database.record.id ↔
      ∃ name kept, database.tables.get? name = some kept ∧ table = kept.record database := by
  constructor
  · rintro ⟨⟨place, there⟩, same⟩
    obtain ⟨owner, kept, found, found', rfl, _, own⟩ := table_placed tracks there
    have one : place.1 = key := by
      refine databases_apart apart _ _ (tracks.keyed.databases _ owner found).2 (tracks.keyed.databases _ database held).2 ?_
      rw [← own, same, record_id tracks.keyed held]
    rw [one, held] at found
    cases found
    exact ⟨place.2, kept, found', rfl⟩
  · rintro ⟨name, kept, found, same⟩
    refine ⟨⟨(key, name), ?_⟩, same ▸ rfl⟩
    rw [NestedCatalog.tableAt, held, Option.bind_some, found, same]
    rfl

theorem tables_listed (known : Text.lower owner ∈ names.map Text.lower) {database : NestedDatabase}
    (found : nested.database owner = .ok database) :
    ∃ tables, catalog.tableList owner = .ok tables ∧ tables.Pairwise (·.name < ·.name) ∧
      ∀ table, table ∈ tables ↔ ∃ name kept, database.tables.get? name = some kept ∧ table = kept.record database := by
  have held := NestedCatalog.database_ok.mp found
  have listed := table_filed tracks
  have within (table : Table) : table ∈ catalog.tables.items.filter (·.database == database.record.id) ↔
      ∃ name kept, database.tables.get? name = some kept ∧ table = kept.record database := by
    rw [List.mem_filter, listed.2, beq_iff_eq, tables_within apart tracks held]
  refine ⟨_, by rw [tableList, database_named_nested apart tracks known, found]; rfl, ?_, fun table => ?_⟩
  · refine listed_by_name Table.name _ (listed.1.filter _) fun a among b among' same => ?_
    obtain ⟨key, kept, there, rfl⟩ := (within a).mp among
    obtain ⟨key', kept', there', rfl⟩ := (within b).mp among'
    have one : key = key' := by
      rw [← (tracks.keyed.tables _ database held key kept there).1,
        ← (tracks.keyed.tables _ database held key' kept' there').1]
      exact congrArg Text.lower same
    rw [one, there'] at there
    cases there
    rfl
  · exact List.mem_mergeSort.trans (within table)

theorem tracks_reflects : catalog.Reflects names nested where
  databases id database held := by
    obtain ⟨⟨key, there⟩, same⟩ := (has_database tracks).mp held
    obtain ⟨kept, _, rfl⟩ := Option.map_eq_some_iff.mp there
    exact ⟨same, same.symm⟩
  tables id table held := by
    obtain ⟨⟨place, there⟩, same⟩ := (has_table tracks).mp held
    obtain ⟨database, kept, _, _, rfl, _, _⟩ := table_placed tracks there
    exact ⟨same, same.symm⟩
  owned id table held := table_owned tracks ((has_table tracks).mp held).1
  database_by_id id database := by
    rw [← has_database tracks, database?]
    cases catalog.databases.get? id with
    | none => exact ⟨nofun, nofun⟩
    | some other => simp
  table_by_id id table := by
    rw [← has_table tracks, table?]
    cases catalog.tables.get? id with
    | none => exact ⟨nofun, nofun⟩
    | some other => simp
  table_by_key key table := table_keyed tracks
  database_by_name name known := database_named_nested apart tracks known
  table_by_name owner name known known' := table_named_nested apart tracks known known'
  databases_listed := databases_listed tracks
  tables_listed owner known database found := tables_listed apart tracks known found
  tables_missing owner known cause missing := by
    rw [tableList, database_named_nested apart tracks known, missing]
    rfl

end Content

-- The catalog after the changes to an empty one, those that fail among them.
def after (changes : List CatalogChange) : Catalog :=
  changes.foldl (fun catalog change => (change.perform catalog).2) .empty

end Catalog

def NestedCatalog.after (changes : List CatalogChange) : NestedCatalog :=
  changes.foldl (fun nested change => (nested.perform change).2) .empty

namespace Catalog

theorem empty_tracks (names : List String) : empty.Tracks names .empty where
  databases _ _ := ⟨nofun, nofun⟩
  tables _ _ := ⟨nofun, nofun⟩
  keyed := ⟨nofun, nofun⟩

theorem after_tracks {names : List String} (apart : Apart names) (changes : List CatalogChange)
    (known : ∀ change ∈ changes, ∀ name ∈ change.names, Text.lower name ∈ names.map Text.lower) :
    (after changes).Tracks names (.after changes) := by
  have steps (catalog : Catalog) (nested : NestedCatalog) (tracks : catalog.Tracks names nested) :
      Tracks names (changes.foldl (fun catalog change => (change.perform catalog).2) catalog)
        (changes.foldl (fun nested change => (nested.perform change).2) nested) := by
    induction changes generalizing catalog nested with
    | nil => exact tracks
    | cons change rest ih =>
        refine ih (fun change listed => known change (.tail _ listed)) _ _ ?_
        exact (perform_follows apart tracks change (known change (.head _))).2
  exact steps .empty .empty (empty_tracks names)

theorem changes_reflected (names : List String) (apart : Apart names) (changes : List CatalogChange)
    (known : ∀ change ∈ changes, ∀ name ∈ change.names, Text.lower name ∈ names.map Text.lower) :
    (after changes).Reflects names (.after changes) ∧
    ∀ change : CatalogChange, (∀ name ∈ change.names, Text.lower name ∈ names.map Text.lower) →
      (change.perform (after changes)).1 = ((NestedCatalog.after changes).perform change).1 ∧
      ∀ cause, (change.perform (after changes)).1 = .error cause → (change.perform (after changes)).2 = after changes := by
  have tracks := after_tracks apart changes known
  refine ⟨tracks_reflects apart tracks, fun change named => ⟨(perform_follows apart tracks change named).1, ?_⟩⟩
  intro cause failed
  rw [CatalogChange.perform_attempt] at failed ⊢
  cases done : change.attempt (after changes) with
  | error _ => rfl
  | ok later =>
      rw [done] at failed
      cases failed

-- A database is dropped with its table, and both are made again in other spellings.
def remade : List CatalogChange :=
  [.createDatabase "Sales" .empty, .createTable "SALES" "Orders" [⟨"_id", .id, false⟩] none, .dropDatabase "sales",
    .dropTable "sales" "orders", .createDatabase "sALES" .empty, .setOption "Sales" "Owner" "ann",
    .createTable "sales" "ORDERS" [⟨"_id", .id, false⟩] none, .createField "Sales" "orders" ⟨"total", .int, true⟩]

theorem remade_apart : Apart ["Sales", "Orders"] := ⟨by decide +kernel, by decide +kernel⟩

theorem remade_reflected : Apart ["Sales", "Orders"] ∧
    (∀ change ∈ remade, ∀ name ∈ change.names, Text.lower name ∈ ["Sales", "Orders"].map Text.lower) ∧
    (after remade).Reflects ["Sales", "Orders"] (.after remade) ∧
    ((after remade).tableNamed "SALES" "Orders").map (fun table => table.fields.map (·.name)) = .ok ["_id", "total"] ∧
    ((CatalogChange.createTable "sales" "orders" [] none).perform (after remade)).1 = .error (.tableNameExists "orders") ∧
    ((CatalogChange.createTable "sales" "orders" [] none).perform (after remade)).2 = after remade := by
  have known : ∀ change ∈ remade, ∀ name ∈ change.names, Text.lower name ∈ ["Sales", "Orders"].map Text.lower := by
    decide +kernel
  obtain ⟨reflects, next⟩ := changes_reflected _ remade_apart remade known
  obtain ⟨answer, unchanged⟩ := next (.createTable "sales" "orders" [] none) (by decide +kernel)
  have refused : ((CatalogChange.createTable "sales" "orders" [] none).perform (after remade)).1 =
      .error (.tableNameExists "orders") := answer.trans (by decide +kernel)
  refine ⟨remade_apart, known, reflects, ?_, refused, unchanged _ refused⟩
  rw [reflects.table_by_name "SALES" "Orders" (by decide +kernel) (by decide +kernel)]
  decide +kernel

end Catalog

end ShardQuery
