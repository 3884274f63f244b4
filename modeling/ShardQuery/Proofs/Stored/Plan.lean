import ShardQuery.Proofs.Cbor.Compact
import ShardQuery.Proofs.Stored.Value
import ShardQuery.Stored.Plan
/-!
Stored plans. Main statement: a plan is read back as it was from its stored form, and from nothing shorter or longer,
unless that form nests more deeply than a reader follows; then it is refused.
-/

set_option autoImplicit false

namespace ShardQuery

open Cbor Item

-- Positions are machine words.
def PlanExpr.Addressed : PlanExpr → Prop
  | .column i | .outer i => i < 2 ^ 64
  | .literal _ => True
  | .binary left _ right => left.Addressed ∧ right.Addressed
  | .not e | .isNull e _ => e.Addressed

def InsertPlan.Addressed (insertion : InsertPlan) : Prop := ∀ row ∈ insertion.rows, ∀ e ∈ row, e.Addressed

def Plan.Addressed : Plan → Prop
  | .filter predicate child => predicate.Addressed ∧ child.Addressed
  | .project exprs _ child => (∀ e ∈ exprs, e.Addressed) ∧ child.Addressed
  | .orderBy keys child => (∀ sortKey ∈ keys, sortKey.key.Addressed) ∧ child.Addressed
  | .distinct child | .fanOut _ child | .limit _ child => child.Addressed
  | .insert insertion => insertion.Addressed
  | _ => True

section Items

variable {forms : Forms} (lawful : forms.Lawful)

include lawful

theorem BinaryOp.of_item_to_item (op : BinaryOp) : ofItem? forms (op.toItem forms) = some op := by
  have read (name : String) (known : name ∈ variants) : ofItem? forms (forms.bare name) =
      [eq, notEq, lt, ltEq, gt, gtEq, and, or, plus, minus, multiply][variants.idxOf name]? := by
    rw [ofItem?, lawful.bare_read variants name known]
    rfl
  cases op <;> exact (read _ (by decide)).trans (by decide)

theorem BinaryOp.to_item_plain (op : BinaryOp) : (op.toItem forms).Plain := by
  cases op <;> exact lawful.plain_bare _

namespace PlanExpr

theorem to_item_plain (e : PlanExpr) (addressed : e.Addressed) : (e.toItem forms).Plain := by
  induction e with
  | column i => exact lawful.plain_variant _ _ addressed
  | outer i => exact lawful.plain_variant _ _ addressed
  | literal v => exact lawful.plain_variant _ _ (v.to_item_readable lawful).plain
  | binary left op right first second =>
      exact lawful.plain_variant_fields _ _ ⟨first addressed.1, op.to_item_plain lawful, second addressed.2⟩
  | not e ih => exact lawful.plain_variant _ _ (ih addressed)
  | isNull e negated ih => exact lawful.plain_variant_fields _ _ ⟨ih addressed, trivial⟩

-- A step of fuel for each level of the stored form is enough: every operator opens a level.
theorem read_to_item (e : PlanExpr) (addressed : e.Addressed) (fuel : Nat) (fueled : (e.toItem forms).depth < fuel) :
    read? forms fuel (e.toItem forms) = some e := by
  induction fuel generalizing e with
  | zero => exact absurd fueled (Nat.not_lt_zero _)
  | succ fuel ih =>
      cases e with
      | column i =>
          rw [toItem, read?, lawful.variant_at variants "Column" _ 0 (by decide) (by decide)]
          change (forms.natural? (2 ^ 64) (.natural i)).map PlanExpr.column = _
          rw [lawful.natural_read _ i addressed, Option.map_some]
      | outer i =>
          rw [toItem, read?, lawful.variant_at variants "Outer" _ 1 (by decide) (by decide)]
          change (forms.natural? (2 ^ 64) (.natural i)).map PlanExpr.outer = _
          rw [lawful.natural_read _ i addressed, Option.map_some]
      | literal v =>
          rw [toItem, read?, lawful.variant_at variants "Literal" _ 2 (by decide) (by decide)]
          change (Value.ofItem? forms (v.toItem forms)).map PlanExpr.literal = _
          rw [v.of_item_to_item lawful, Option.map_some]
      | binary left op right =>
          have parts : forms.fields? ["left", "op", "right"] (forms.fields [("left", left.toItem forms),
              ("op", op.toItem forms), ("right", right.toItem forms)]) = some _ :=
            lawful.fields_read ["left", "op", "right"] [left.toItem forms, op.toItem forms, right.toItem forms]
              (by decide) rfl
          rw [toItem] at fueled ⊢
          have first := ih left addressed.1 (lawful.part_fueled _ "left" _ _ _ (by simp) fueled)
          have second := ih right addressed.2 (lawful.part_fueled _ "right" _ _ _ (by simp) fueled)
          rw [read?, lawful.variant_at variants "Binary" _ 3 (by decide) (by decide)]
          simp only [parts, List.map_cons, List.map_nil, first, op.of_item_to_item lawful, second]
          rfl
      | not e =>
          rw [toItem, lawful.depth_variant] at fueled
          rw [toItem, read?, lawful.variant_at variants "Not" _ 4 (by decide) (by decide)]
          change (read? forms fuel (e.toItem forms)).map PlanExpr.not = _
          rw [ih e addressed (Nat.lt_of_succ_lt_succ fueled), Option.map_some]
      | isNull e negated =>
          have parts : forms.fields? ["expr", "negated"]
              (forms.fields [("expr", e.toItem forms), ("negated", .bool negated)]) = some _ :=
            lawful.fields_read ["expr", "negated"] [e.toItem forms, .bool negated] (by decide) rfl
          rw [toItem] at fueled ⊢
          have known := ih e addressed (lawful.part_fueled _ "expr" _ _ _ (by simp) fueled)
          rw [read?, lawful.variant_at variants "IsNull" _ 5 (by decide) (by decide)]
          simp only [parts, List.map_cons, List.map_nil, known, lawful.bool_read]
          rfl

theorem of_item_to_item (e : PlanExpr) (addressed : e.Addressed) : ofItem? forms (e.toItem forms) = some e :=
  e.read_to_item lawful addressed _ (Nat.lt_succ_self _)

end PlanExpr

namespace SortKey

theorem of_item_to_item (sortKey : SortKey) (addressed : sortKey.key.Addressed) :
    ofItem? forms (sortKey.toItem forms) = some sortKey := by
  have fields : forms.fields? ["expr", "descending"] (sortKey.toItem forms) = some _ :=
    lawful.fields_read ["expr", "descending"] [sortKey.key.toItem forms, .bool sortKey.descending] (by decide) rfl
  rw [ofItem?, fields]
  change (PlanExpr.ofItem? forms (sortKey.key.toItem forms)).bind _ = _
  rw [sortKey.key.of_item_to_item lawful addressed, Option.bind_some, lawful.bool_read]
  rfl

theorem to_item_plain (sortKey : SortKey) (addressed : sortKey.key.Addressed) : (sortKey.toItem forms).Plain :=
  lawful.plain_fields _ ⟨sortKey.key.to_item_plain lawful addressed, trivial⟩

end SortKey

namespace TableChange

theorem of_item_to_item (change : TableChange) : ofItem? forms (change.toItem forms) = some change := by
  cases change with
  | addColumn field =>
      rw [toItem, ofItem?, lawful.variant_at ["AddColumn", "DropColumn"] "AddColumn" _ 0 (by decide) (by decide)]
      change (Field.ofItem? forms (field.toItem forms)).map TableChange.addColumn = _
      rw [field.of_item_to_item lawful, Option.map_some]
  | dropColumn name =>
      rw [toItem, ofItem?, lawful.variant_at ["AddColumn", "DropColumn"] "DropColumn" _ 1 (by decide) (by decide)]
      change (forms.text? (.text name)).map TableChange.dropColumn = _
      rw [lawful.text_read, Option.map_some]

theorem to_item_plain (change : TableChange) : (change.toItem forms).Plain := by
  cases change with
  | addColumn field => exact lawful.plain_variant _ _ (field.to_item_plain lawful)
  | dropColumn name => exact lawful.plain_variant _ _ trivial

end TableChange

namespace InsertPlan

theorem of_item_to_item (insertion : InsertPlan) (addressed : insertion.Addressed) :
    ofItem? forms (insertion.toItem forms) = some insertion := by
  have fields : forms.fields? ["table", "table_name", "columns", "dtypes", "rows"] (insertion.toItem forms) = some _ :=
    lawful.fields_read ["table", "table_name", "columns", "dtypes", "rows"]
      [ofWord insertion.table.code, .text insertion.tableName, ofList .text insertion.columns,
        ofList (DataType.toItem · forms) insertion.types, ofList (ofList (PlanExpr.toItem · forms)) insertion.rows]
      (by decide) rfl
  have rows : forms.list? (forms.list? (PlanExpr.ofItem? forms))
      (ofList (ofList (PlanExpr.toItem · forms)) insertion.rows) = some insertion.rows :=
    lawful.list_of_list _ _ insertion.rows fun row member =>
      lawful.list_of_list _ _ row fun e among => e.of_item_to_item lawful (addressed row member e among)
  rw [ofItem?, fields]
  change (forms.word? _).bind _ = _
  rw [lawful.word_of_word, Option.bind_some, lawful.text_read]
  change (forms.list? forms.text? (ofList .text insertion.columns)).bind _ = _
  rw [lawful.texts_of_texts, Option.bind_some]
  change (forms.list? _ (ofList (DataType.toItem · forms) insertion.types)).bind _ = _
  rw [lawful.list_of_list _ _ insertion.types fun type _ => type.of_item_to_item lawful, Option.bind_some]
  change (forms.list? _ (ofList (ofList (PlanExpr.toItem · forms)) insertion.rows)).bind _ = _
  rw [rows]
  rfl

theorem to_item_plain (insertion : InsertPlan) (addressed : insertion.Addressed) : (insertion.toItem forms).Plain := by
  have columns := plain_list Item.text insertion.columns fun _ _ => trivial
  have types := plain_list (DataType.toItem · forms) insertion.types fun type _ => type.to_item_plain lawful
  have rows := plain_list (ofList (PlanExpr.toItem · forms)) insertion.rows fun row member =>
    plain_list _ _ fun e among => e.to_item_plain lawful (addressed row member e among)
  exact lawful.plain_fields _ ⟨plain_word _, trivial, columns, types, rows⟩

end InsertPlan

theorem options_of_item (options : SortedMap String String) : options? forms (optionsItem options) = some options := by
  have known : (options.entries.map fun option => ((.text option.1 : Item), (.text option.2 : Item))).mapM
      (fun member => (forms.text? member.1).bind fun key => (forms.text? member.2).map fun setting => (key, setting)) =
        some options.entries := by
    rw [List.mapM_map]
    refine (mapM_some options.entries _ id fun option _ => ?_).trans (congrArg some (List.map_id _))
    change (forms.text? (.text option.1)).bind _ = _
    rw [lawful.text_read, Option.bind_some, lawful.text_read]
    rfl
  rw [optionsItem, options?, lawful.members_read]
  change Option.bind (List.mapM _ (options.entries.map _)) _ = _
  rw [known, Option.bind_some]
  exact congrArg some options.ofList_entries

omit lawful in
theorem options_item_plain (options : SortedMap String String) : (optionsItem options).Plain := by
  change PlainMembers (options.entries.map fun option => (.text option.1, .text option.2))
  induction options.entries with
  | nil => trivial
  | cons option entries ih => exact ⟨trivial, trivial, ih⟩

namespace Plan

theorem to_item_plain (plan : Plan) (addressed : plan.Addressed) : (plan.toItem forms).Plain := by
  induction plan with
  | scan table tableName fields schema =>
      have listed := plain_list Item.text fields fun _ _ => trivial
      exact lawful.plain_variant_fields _ _ ⟨plain_word _, trivial, listed, schema.to_item_plain lawful⟩
  | values rows schema =>
      have listed := plain_list (Row.toItem · forms) rows fun row _ => row.to_item_plain lawful
      exact lawful.plain_variant_fields _ _ ⟨listed, schema.to_item_plain lawful⟩
  | filter predicate child ih =>
      exact lawful.plain_variant_fields _ _ ⟨predicate.to_item_plain lawful addressed.1, ih addressed.2⟩
  | project exprs schema child ih =>
      have listed := plain_list (PlanExpr.toItem · forms) exprs fun e member =>
        e.to_item_plain lawful (addressed.1 e member)
      exact lawful.plain_variant_fields _ _ ⟨listed, schema.to_item_plain lawful, ih addressed.2⟩
  | distinct child ih => exact lawful.plain_variant_fields _ _ (ih addressed)
  | fanOut table child ih => exact lawful.plain_variant_fields _ _ ⟨plain_word _, ih addressed⟩
  | orderBy keys child ih =>
      have listed := plain_list (SortKey.toItem · forms) keys fun sortKey member =>
        sortKey.to_item_plain lawful (addressed.1 sortKey member)
      exact lawful.plain_variant_fields _ _ ⟨listed, ih addressed.2⟩
  | limit window child ih => exact lawful.plain_variant_fields _ _ ⟨plain_word _, plain_word _, ih addressed⟩
  | createDatabase name ifNotExists options =>
      exact lawful.plain_variant_fields _ _ ⟨trivial, trivial, options_item_plain options⟩
  | createTable database name ifNotExists fields description =>
      have listed := plain_list (Field.toItem · forms) fields fun field _ => field.to_item_plain lawful
      have described := plain_option Item.text description fun _ _ => trivial
      exact lawful.plain_variant_fields _ _ ⟨trivial, trivial, trivial, listed, described⟩
  | alterTable database table change =>
      exact lawful.plain_variant_fields _ _ ⟨trivial, trivial, change.to_item_plain lawful⟩
  | insert insertion => exact lawful.plain_variant _ _ (insertion.to_item_plain lawful addressed)
  | dropDatabase | showColumns => exact lawful.plain_variant_fields _ _ ⟨trivial, trivial⟩
  | alterDatabase | dropTable => exact lawful.plain_variant_fields _ _ ⟨trivial, trivial, trivial⟩
  | showTables => exact lawful.plain_variant_fields _ _ trivial
  | showDatabases => exact lawful.plain_variant _ _ trivial

theorem read_leaf (plan : Plan) (addressed : plan.Addressed) (leaf : plan.child? = none) (fuel : Nat) :
    read? forms (fuel + 1) (plan.toItem forms) = some plan := by
  cases plan with
  | scan table tableName fields schema =>
      have parts : forms.fields? ["table", "table_name", "fields", "schema"] (forms.fields [("table", .ofWord table.code),
          ("table_name", .text tableName), ("fields", .ofList .text fields), ("schema", schema.toItem forms)]) = some _ :=
        lawful.fields_read ["table", "table_name", "fields", "schema"]
          [ofWord table.code, .text tableName, ofList .text fields, schema.toItem forms] (by decide) rfl
      have listed := lawful.texts_of_texts fields
      rw [toItem, read?, lawful.variant_at variants "TableScan" _ 0 (by decide) (by decide)]
      simp only [readLeaf?, parts, List.map_cons, List.map_nil, lawful.text_read, lawful.word_of_word, listed,
        schema.of_item_to_item lawful]
      rfl
  | values rows schema =>
      have parts : forms.fields? ["rows", "schema"]
          (forms.fields [("rows", .ofList (Row.toItem · forms) rows), ("schema", schema.toItem forms)]) = some _ :=
        lawful.fields_read ["rows", "schema"] [ofList (Row.toItem · forms) rows, schema.toItem forms] (by decide) rfl
      have listed := lawful.list_of_list _ _ rows fun row _ => row.of_item_to_item lawful
      rw [toItem, read?, lawful.variant_at variants "Values" _ 1 (by decide) (by decide)]
      simp only [readLeaf?, parts, List.map_cons, List.map_nil, listed, schema.of_item_to_item lawful]
      rfl
  | createDatabase name ifNotExists options =>
      have parts : forms.fields? ["name", "if_not_exists", "options"] (forms.fields [("name", .text name),
          ("if_not_exists", .bool ifNotExists), ("options", optionsItem options)]) = some _ :=
        lawful.fields_read ["name", "if_not_exists", "options"] [.text name, .bool ifNotExists, optionsItem options]
          (by decide) rfl
      rw [toItem, read?, lawful.variant_at variants "CreateDatabase" _ 8 (by decide) (by decide)]
      simp only [readLeaf?, parts, List.map_cons, List.map_nil, lawful.text_read, lawful.bool_read,
        options_of_item lawful]
      rfl
  | dropDatabase name ifExists =>
      have parts : forms.fields? ["name", "if_exists"]
          (forms.fields [("name", .text name), ("if_exists", .bool ifExists)]) = some _ :=
        lawful.fields_read ["name", "if_exists"] [.text name, .bool ifExists] (by decide) rfl
      rw [toItem, read?, lawful.variant_at variants "DropDatabase" _ 9 (by decide) (by decide)]
      simp only [readLeaf?, parts, List.map_cons, List.map_nil, lawful.text_read, lawful.bool_read]
      rfl
  | alterDatabase name option setting =>
      have parts : forms.fields? ["name", "option", "value"]
          (forms.fields [("name", .text name), ("option", .text option), ("value", .text setting)]) = some _ :=
        lawful.fields_read ["name", "option", "value"] [.text name, .text option, .text setting] (by decide) rfl
      rw [toItem, read?, lawful.variant_at variants "AlterDatabase" _ 10 (by decide) (by decide)]
      simp only [readLeaf?, parts, List.map_cons, List.map_nil, lawful.text_read]
      rfl
  | createTable database name ifNotExists fields description =>
      have parts : forms.fields? ["database", "name", "if_not_exists", "fields", "description"]
          (forms.fields [("database", .text database), ("name", .text name), ("if_not_exists", .bool ifNotExists),
            ("fields", .ofList (Field.toItem · forms) fields), ("description", .ofOption .text description)]) = some _ :=
        lawful.fields_read ["database", "name", "if_not_exists", "fields", "description"]
          [.text database, .text name, .bool ifNotExists, ofList (Field.toItem · forms) fields,
            ofOption .text description] (by decide) rfl
      have listed := lawful.list_of_list _ _ fields fun field _ => field.of_item_to_item lawful
      have described := lawful.text_of_option description
      rw [toItem, read?, lawful.variant_at variants "CreateTable" _ 11 (by decide) (by decide)]
      simp only [readLeaf?, parts, List.map_cons, List.map_nil, lawful.text_read, lawful.bool_read, listed,
        Option.getD_some, described]
      rfl
  | dropTable database name ifExists =>
      have parts : forms.fields? ["database", "name", "if_exists"] (forms.fields [("database", .text database),
          ("name", .text name), ("if_exists", .bool ifExists)]) = some _ :=
        lawful.fields_read ["database", "name", "if_exists"] [.text database, .text name, .bool ifExists] (by decide) rfl
      rw [toItem, read?, lawful.variant_at variants "DropTable" _ 12 (by decide) (by decide)]
      simp only [readLeaf?, parts, List.map_cons, List.map_nil, lawful.text_read, lawful.bool_read]
      rfl
  | alterTable database table change =>
      have parts : forms.fields? ["database", "table", "operation"] (forms.fields [("database", .text database),
          ("table", .text table), ("operation", change.toItem forms)]) = some _ :=
        lawful.fields_read ["database", "table", "operation"] [.text database, .text table, change.toItem forms]
          (by decide) rfl
      rw [toItem, read?, lawful.variant_at variants "AlterTable" _ 13 (by decide) (by decide)]
      simp only [readLeaf?, parts, List.map_cons, List.map_nil, lawful.text_read, change.of_item_to_item lawful]
      rfl
  | insert insertion =>
      rw [toItem, read?, lawful.variant_at variants "Insert" _ 14 (by decide) (by decide)]
      simp only [readLeaf?, insertion.of_item_to_item lawful addressed]
      rfl
  | showDatabases =>
      rw [toItem, read?, lawful.variant_at variants "ShowDatabases" _ 15 (by decide) (by decide)]
      simp only [readLeaf?, lawful.null_read]
      rfl
  | showTables database =>
      have parts : forms.fields? ["database"] (forms.fields [("database", .text database)]) = some _ :=
        lawful.fields_read ["database"] [.text database] (by decide) rfl
      rw [toItem, read?, lawful.variant_at variants "ShowTables" _ 16 (by decide) (by decide)]
      simp only [readLeaf?, parts, List.map_cons, List.map_nil, lawful.text_read]
      rfl
  | showColumns database table =>
      have parts : forms.fields? ["database", "table"]
          (forms.fields [("database", .text database), ("table", .text table)]) = some _ :=
        lawful.fields_read ["database", "table"] [.text database, .text table] (by decide) rfl
      rw [toItem, read?, lawful.variant_at variants "ShowColumns" _ 17 (by decide) (by decide)]
      simp only [readLeaf?, parts, List.map_cons, List.map_nil, lawful.text_read]
      rfl
  | filter | project | distinct | fanOut | orderBy | limit => cases leaf

theorem read_to_item (plan : Plan) (addressed : plan.Addressed) (fuel : Nat) (fueled : (plan.toItem forms).depth < fuel) :
    read? forms fuel (plan.toItem forms) = some plan := by
  induction fuel generalizing plan with
  | zero => exact absurd fueled (Nat.not_lt_zero _)
  | succ fuel ih =>
      cases plan with
      | filter predicate child =>
          have parts : forms.fields? ["predicate", "child"] (forms.fields [("predicate", predicate.toItem forms),
              ("child", child.toItem forms)]) = some _ :=
            lawful.fields_read ["predicate", "child"] [predicate.toItem forms, child.toItem forms] (by decide) rfl
          rw [toItem] at fueled ⊢
          have known := ih child addressed.2 (lawful.part_fueled _ "child" _ _ _ (by simp) fueled)
          rw [read?, lawful.variant_at variants "Filter" _ 2 (by decide) (by decide)]
          simp only [parts, List.map_cons, List.map_nil, predicate.of_item_to_item lawful addressed.1, known]
          rfl
      | project exprs schema child =>
          have parts : forms.fields? ["exprs", "schema", "child"]
              (forms.fields [("exprs", .ofList (PlanExpr.toItem · forms) exprs), ("schema", schema.toItem forms),
                ("child", child.toItem forms)]) = some _ :=
            lawful.fields_read ["exprs", "schema", "child"]
              [ofList (PlanExpr.toItem · forms) exprs, schema.toItem forms, child.toItem forms] (by decide) rfl
          have listed := lawful.list_of_list _ _ exprs fun e member => e.of_item_to_item lawful (addressed.1 e member)
          rw [toItem] at fueled ⊢
          have known := ih child addressed.2 (lawful.part_fueled _ "child" _ _ _ (by simp) fueled)
          rw [read?, lawful.variant_at variants "Projection" _ 3 (by decide) (by decide)]
          simp only [parts, List.map_cons, List.map_nil, listed, schema.of_item_to_item lawful, known]
          rfl
      | distinct child =>
          have parts : forms.fields? ["child"] (forms.fields [("child", child.toItem forms)]) = some _ :=
            lawful.fields_read ["child"] [child.toItem forms] (by decide) rfl
          rw [toItem] at fueled ⊢
          have known := ih child addressed (lawful.part_fueled _ "child" _ _ _ (by simp) fueled)
          rw [read?, lawful.variant_at variants "Distinct" _ 4 (by decide) (by decide)]
          simp only [parts, List.map_cons, List.map_nil, known]
          rfl
      | fanOut table child =>
          have parts : forms.fields? ["table", "child"] (forms.fields [("table", .ofWord table.code),
              ("child", child.toItem forms)]) = some _ :=
            lawful.fields_read ["table", "child"] [ofWord table.code, child.toItem forms] (by decide) rfl
          rw [toItem] at fueled ⊢
          have known := ih child addressed (lawful.part_fueled _ "child" _ _ _ (by simp) fueled)
          rw [read?, lawful.variant_at variants "FanOut" _ 5 (by decide) (by decide)]
          simp only [parts, List.map_cons, List.map_nil, lawful.word_of_word, known]
          rfl
      | orderBy keys child =>
          have parts : forms.fields? ["keys", "child"] (forms.fields [("keys", .ofList (SortKey.toItem · forms) keys),
              ("child", child.toItem forms)]) = some _ :=
            lawful.fields_read ["keys", "child"] [ofList (SortKey.toItem · forms) keys, child.toItem forms]
              (by decide) rfl
          have listed := lawful.list_of_list _ _ keys fun sortKey member =>
            sortKey.of_item_to_item lawful (addressed.1 sortKey member)
          rw [toItem] at fueled ⊢
          have known := ih child addressed.2 (lawful.part_fueled _ "child" _ _ _ (by simp) fueled)
          rw [read?, lawful.variant_at variants "OrderBy" _ 6 (by decide) (by decide)]
          simp only [parts, List.map_cons, List.map_nil, listed, known]
          rfl
      | limit window child =>
          have parts : forms.fields? ["limit", "offset", "child"] (forms.fields [("limit", .ofWord window.limit),
              ("offset", .ofWord window.offset), ("child", child.toItem forms)]) = some _ :=
            lawful.fields_read ["limit", "offset", "child"]
              [ofWord window.limit, ofWord window.offset, child.toItem forms] (by decide) rfl
          rw [toItem] at fueled ⊢
          have known := ih child addressed (lawful.part_fueled _ "child" _ _ _ (by simp) fueled)
          rw [read?, lawful.variant_at variants "Limit" _ 7 (by decide) (by decide)]
          simp only [parts, List.map_cons, List.map_nil, lawful.word_of_word, known]
          rfl
      | _ => exact read_leaf lawful _ addressed rfl fuel

theorem of_item_to_item (plan : Plan) (addressed : plan.Addressed) : ofItem? forms (plan.toItem forms) = some plan :=
  plan.read_to_item lawful addressed _ (Nat.lt_succ_self _)

end Plan

end Items

namespace Plan

def Refused (outcome : Outcome Plan) : Prop := ∃ why, outcome = .error (.serialization why)

theorem refused_of_unread {codec : Codec} {forms : Forms} {bytes : Bytes} (unread : codec.read bytes = none) :
    Refused (decode bytes codec forms) := by
  refine ⟨"not a stored plan", ?_⟩
  rw [decode, unread]
  rfl

-- The bounds are the machine's: positions and the bytes of a stored form are counted in words.
theorem stored_read_back (codec : Codec) (forms : Forms) (coded : codec.Lawful) (formed : forms.Lawful) (plan : Plan)
    (addressed : plan.Addressed) (counted : (plan.encode codec forms).length < 2 ^ 64) :
    ((plan.toItem forms).depth ≤ maxDepth → decode (plan.encode codec forms) codec forms = .ok plan ∧
      (∀ cut < (plan.encode codec forms).length, Refused (decode ((plan.encode codec forms).take cut) codec forms)) ∧
      ∀ more ≠ [], Refused (decode (plan.encode codec forms ++ more) codec forms)) ∧
    (maxDepth < (plan.toItem forms).depth → Refused (decode (plan.encode codec forms) codec forms)) := by
  have plain := plan.to_item_plain formed addressed
  constructor
  · intro nested
    refine ⟨?_, fun cut short => ?_, fun more followed => ?_⟩
    · rw [decode, encode, coded.read_written plain counted nested, Option.bind_some, plan.of_item_to_item formed addressed]
    · exact refused_of_unread (coded.read_cut plain counted short)
    · exact refused_of_unread (coded.read_followed plain counted nested followed)
  · exact fun deep => refused_of_unread (coded.read_deep plain counted deep)

section Negations

def negations : Nat → PlanExpr
  | 0 => .isNull (.column 1) true
  | count + 1 => .not (negations count)

def negated (count : Nat) : Plan :=
  .filter (negations count) (.values [⟨[.decimal 150 2, .idSet [3, 1, 2]]⟩]
    ⟨[.plain "amount" (.decimal 2), .plain "ids" .idSet]⟩)

theorem negated_addressed (count : Nat) : (negated count).Addressed := by
  refine ⟨?_, trivial⟩
  induction count with
  | zero => exact (by decide : 1 < 2 ^ 64)
  | succ count ih => exact ih

theorem negated_read_back : decode (negated 2).encode = .ok (negated 2) ∧
    Refused (decode ((negated 2).encode.take ((negated 2).encode.length - 1))) ∧
    Refused (decode ((negated 2).encode ++ [0xf6])) ∧ Refused (decode (negated 123).encode) := by
  obtain ⟨reads, cut, followed⟩ := (stored_read_back .compact .derived Codec.compact_lawful Forms.derived_lawful
    (negated 2) (negated_addressed 2) (by decide +kernel)).1 (by decide +kernel)
  have deep := (stored_read_back .compact .derived Codec.compact_lawful Forms.derived_lawful (negated 123)
    (negated_addressed 123) (by decide +kernel)).2 (by decide +kernel)
  exact ⟨reads, cut _ (by decide +kernel), followed [0xf6] (by decide), deep⟩

end Negations

end Plan

end ShardQuery
