import ShardQuery.Proofs.Catalog.Reflected
import ShardQuery.Proofs.Engine.Apart
import ShardQuery.Proofs.Statement.Projected
import ShardQuery.Proofs.Value.Lossless
/-!
Analysis of what was analyzed before. Main statement: it changes nothing any more, and each reference that it left means
the column that was written, wherever the table of an insertion is found under its own name.
-/

set_option autoImplicit false

namespace ShardQuery

variable {schema : Schema}

namespace Expr

-- The same expression in other words: a reference is to the column at the same place, a literal denotes the same.
inductive Rewritten (schema : Schema) : Expr → Expr → Prop
  | column (table table' : Option String) (name name' : String) (i : Nat) (before : schema.resolve table name = .ok i)
      (after : schema.resolve table' name' = .ok i) : Rewritten schema (.column table name) (.column table' name')
  | literal (v w : Value) (same : v.DenotesAs w) : Rewritten schema (.literal v) (.literal w)
  | binary (left right left' right' : Expr) (op : BinaryOp) (first : Rewritten schema left left')
      (second : Rewritten schema right right') : Rewritten schema (.binary left op right) (.binary left' op right')
  | not (e e' : Expr) (same : Rewritten schema e e') : Rewritten schema (.not e) (.not e')
  | isNull (e e' : Expr) (negated : Bool) (same : Rewritten schema e e') :
      Rewritten schema (.isNull e negated) (.isNull e' negated)

-- A literal takes no other type than the one it has.
theorem adopt_own {e : Expr} {type : Option DataType} (typed : e.type schema = .ok type) : adopt type e = e := by
  rcases adopt_cases type e with same | ⟨v, target, converted, rfl, rfl, done, same⟩
  · exact same
  · rw [same, Option.some.inj ((Value.convert_own (Except.ok.inj typed)).symm.trans done)]

theorem adopt_again (type : Option DataType) (e : Expr) : adopt type (adopt type e) = adopt type e := by
  rcases adopt_cases type e with same | ⟨v, target, converted, rfl, rfl, done, same⟩
  · rw [same, same]
  · rw [same, adopt, Option.bind_some, Value.convert_again done]

theorem adopt_qualified {type : Option DataType} {e : Expr} (own : e.qualify schema = .ok e) :
    (adopt type e).qualify schema = .ok (adopt type e) := by
  rcases adopt_cases type e with same | ⟨v, target, converted, rfl, -, -, same⟩
  · rw [same, own]
  · rw [same]
    rfl

-- Once the left operand has adopted the type of the right one, its new type says no more to the right one.
theorem operands_settled {left right : Expr} {a b : Option DataType} (typed : left.type schema = .ok a)
    (typed' : (adopt a right).type schema = .ok b) :
    ∃ c, (adopt b left).type schema = .ok c ∧ adopt c (adopt a right) = adopt a right := by
  rcases adopt_cases b left with same | ⟨v, target, converted, rfl, rfl, done, same⟩
  · exact ⟨a, (congrArg (Expr.type schema) same).trans typed, adopt_again a right⟩
  · rw [same]
    refine ⟨converted.dataType?, rfl, ?_⟩
    rcases Value.convert_typed v converted target done with ⟨-, rfl⟩ | ⟨-, known⟩
    · -- A null has no type that could be adopted.
      cases adopt a right <;> rfl
    · rw [known]
      exact adopt_own typed'

-- What is qualified is not changed by qualifying it.
theorem qualify_again (e qualified : Expr) (done : e.qualify schema = .ok qualified) :
    qualified.qualify schema = .ok qualified := by
  induction e generalizing qualified with
  | column table name =>
      obtain ⟨i, resolved, done⟩ := ok_of_bind done
      split at done
      · rename_i found held
        cases done
        refine bind_of_ok (Schema.resolve_qualified resolved held) ?_
        rw [held]
        rfl
      · cases done
  | literal v =>
      cases done
      rfl
  | not e ih =>
      obtain ⟨inner, first, done⟩ := ok_of_bind done
      cases done
      exact bind_of_ok (ih inner first) rfl
  | isNull e negated ih =>
      obtain ⟨inner, first, done⟩ := ok_of_bind done
      cases done
      exact bind_of_ok (ih inner first) rfl
  | binary left op right ih ih' =>
      obtain ⟨l, r, first, second, made⟩ := qualify_binary done
      have own := ih l first
      have own' := ih' r second
      rcases made with ⟨computes, rfl⟩ | ⟨compares, type, type', typed, typed', rfl⟩
      · refine bind_of_ok own (bind_of_ok own' ?_)
        rw [computes]
        rfl
      · obtain ⟨type'', typed'', same⟩ := operands_settled typed typed'
        refine bind_of_ok (adopt_qualified own) (bind_of_ok (adopt_qualified own') ?_)
        rw [if_pos compares]
        refine bind_of_ok typed'' ?_
        rw [same]
        refine bind_of_ok typed' ?_
        rw [adopt_again]
        rfl

theorem qualify_literal {e : Expr} {v : Value} (done : e.qualify schema = .ok (.literal v)) : e = .literal v := by
  cases e with
  | literal w =>
      cases done
      rfl
  | column table name =>
      obtain ⟨i, -, done⟩ := ok_of_bind done
      split at done
      · cases done
      · cases done
  | not e | isNull e =>
      obtain ⟨_, -, done⟩ := ok_of_bind done
      cases done
  | binary left op right =>
      obtain ⟨l, r, -, -, ⟨-, made⟩ | ⟨-, _, _, -, -, made⟩⟩ := qualify_binary done
      · cases made
      · cases made

theorem adopt_rewrites {type : Option DataType} {e qualified : Expr} (done : e.qualify schema = .ok qualified)
    (same : Rewritten schema e qualified) : Rewritten schema e (adopt type qualified) := by
  rcases adopt_cases type qualified with kept | ⟨v, target, converted, rfl, -, converts, adopted⟩
  · rwa [kept]
  · rw [qualify_literal done, adopted]
    exact .literal v converted (Value.convert_denotes converts)

theorem qualify_rewrites (e qualified : Expr) (done : e.qualify schema = .ok qualified) :
    Rewritten schema e qualified := by
  induction e generalizing qualified with
  | column table name =>
      obtain ⟨i, resolved, done⟩ := ok_of_bind done
      split at done
      · rename_i found held
        cases done
        exact .column table found.relation name found.name i resolved (Schema.resolve_qualified resolved held)
      · cases done
  | literal v =>
      cases done
      exact .literal v v (.same v)
  | not e ih =>
      obtain ⟨inner, first, done⟩ := ok_of_bind done
      cases done
      exact .not e inner (ih inner first)
  | isNull e negated ih =>
      obtain ⟨inner, first, done⟩ := ok_of_bind done
      cases done
      exact .isNull e inner negated (ih inner first)
  | binary left op right ih ih' =>
      obtain ⟨l, r, first, second, made⟩ := qualify_binary done
      rcases made with ⟨-, rfl⟩ | ⟨-, type, type', -, -, rfl⟩
      · exact .binary _ _ _ _ op (ih l first) (ih' r second)
      · exact .binary _ _ _ _ op (adopt_rewrites first (ih l first)) (adopt_rewrites second (ih' r second))

end Expr

namespace SelectItem

variable {input : Schema}

-- The places of the columns that a wildcard stands for.
def wildcardPlaces (input : Schema) (relation : Option String) : List Nat :=
  (List.range input.size).filter fun i => (input.get? i).any (wildcardTakes relation)

-- What an item is expanded to: a wildcard to a reference for each of its columns, in their order.
inductive Rewritten (input : Schema) : SelectItem → List SelectItem → Prop
  | expr (e e' : Expr) (label : Option String) (same : e.Rewritten input e') : Rewritten input (.expr e label) [.expr e' label]
  | wildcard (relation : Option String) (items : List SelectItem)
      (each : List.Forall₂ (fun item i => ∃ table name, item = .expr (.column table name) none ∧
        input.resolve table name = .ok i) items (wildcardPlaces input relation)) : Rewritten input (.wildcard relation) items

theorem wildcard_places (input : Schema) (relation : Option String) :
    wildcardPlaces input relation =
      (input.columns.zipIdx.filter fun entry => wildcardTakes relation entry.1).map (·.2) := by
  have places : List.range input.size = input.columns.zipIdx.map (·.2) := by
    rw [List.zipIdx_map_snd, List.range_eq_range']
    rfl
  rw [wildcardPlaces, places, List.filter_map]
  refine congrArg (List.map _) (List.filter_congr fun entry member => ?_)
  have held : input.get? entry.2 = some entry.1 := List.mem_zipIdx_iff_getElem?.mp member
  rw [Function.comp_apply, held, Option.any_some]

-- A column under its full name means itself, if it means anything.
theorem column_place {column : Column} {i j : Nat} (held : input.get? j = some column)
    (resolved : input.resolve column.relation column.name = .ok i) : i = j :=
  (((Schema.resolve_iff _ _ i).mp resolved).2 j column held (Schema.matched_itself column)).symm

theorem wildcard_rewrites (relation : Option String)
    (resolved : ∀ column ∈ input.columns.filter (wildcardTakes relation),
      ∃ i, input.resolve column.relation column.name = .ok i) :
    Rewritten input (.wildcard relation)
      ((input.columns.filter (wildcardTakes relation)).map fun column => .expr (.ofColumn column) none) := by
  have columns : input.columns.filter (wildcardTakes relation) =
      (input.columns.zipIdx.filter fun entry => wildcardTakes relation entry.1).map (·.1) := by
    have whole : input.columns.zipIdx.map (·.1) = input.columns := List.zipIdx_map_fst 0 input.columns
    rw [← whole, List.filter_map, whole]
    rfl
  refine .wildcard relation _ ?_
  rw [columns] at resolved ⊢
  rw [wildcard_places, List.map_map, List.forall₂_map_left_iff, List.forall₂_map_right_iff, List.forall₂_same]
  intro entry member
  obtain ⟨i, own⟩ := resolved entry.1 (List.mem_map_of_mem member)
  have held : input.get? entry.2 = some entry.1 := List.mem_zipIdx_iff_getElem?.mp (List.mem_filter.mp member).1
  exact ⟨_, _, rfl, column_place held own ▸ own⟩

theorem analyze_rewrites (item : SelectItem) (items : List SelectItem) (done : item.analyze input = .ok items)
    (declared : ∀ expanded ∈ items, ∃ column, expanded.column input = .ok column) : item.Rewritten input items := by
  cases item with
  | wildcard relation =>
      obtain rfl := expand_eq done
      refine wildcard_rewrites relation fun column member => ?_
      obtain ⟨own, found⟩ := declared _ (List.mem_map_of_mem member)
      exact column_resolved found
  | expr e label =>
      obtain ⟨qualified, first, done⟩ := ok_of_bind done
      obtain ⟨_, -, done⟩ := ok_of_bind done
      cases done
      exact .expr e qualified label (Expr.qualify_rewrites e qualified first)

-- What an item was expanded to stays as it is.
theorem analyze_again (item : SelectItem) (items : List SelectItem) (done : item.analyze input = .ok items)
    (expanded : SelectItem) (member : expanded ∈ items) (declared : ∃ column, expanded.column input = .ok column) :
    expanded.analyze input = .ok [expanded] := by
  cases item with
  | wildcard relation =>
      obtain rfl := expand_eq done
      obtain ⟨column, among, rfl⟩ := List.mem_map.mp member
      obtain ⟨own, found⟩ := declared
      obtain ⟨i, resolved⟩ := column_resolved found
      obtain ⟨j, held⟩ := List.mem_iff_getElem?.mp (List.mem_filter.mp among).1
      have held : input.get? j = some column := held
      obtain rfl := column_place held resolved
      have settled : (Expr.ofColumn column).qualify input = .ok (.ofColumn column) := by
        refine bind_of_ok resolved ?_
        rw [held]
        rfl
      exact bind_of_ok settled (bind_of_ok (bind_of_ok resolved rfl) rfl)
  | expr e label =>
      obtain ⟨qualified, first, done⟩ := ok_of_bind done
      obtain ⟨_, typed, done⟩ := ok_of_bind done
      cases done
      obtain rfl := List.mem_singleton.mp member
      exact bind_of_ok (Expr.qualify_again e qualified first) (bind_of_ok typed rfl)

end SelectItem

namespace Select

variable {input output : Schema}

-- A query in other words: its condition and its projection over the input, its sort keys over the output.
structure Rewritten (input output : Schema) (query query' : Select) : Prop where
  projection : ∃ expanded, List.Forall₂ (SelectItem.Rewritten input) query.projection expanded ∧
    query'.projection = expanded.flatten
  condition : Option.Rel (Expr.Rewritten input) query.condition? query'.condition?
  order : List.Forall₂ (fun item item' => item.key.Rewritten output item'.key ∧ item'.descending = item.descending)
    query.orderBy query'.orderBy
  distinct : query'.distinct = query.distinct
  source : query'.source? = query.source?
  window : query'.window? = query.window?

theorem condition_again {condition analyzed : Expr} (done : analyzeCondition input condition = .ok analyzed) :
    analyzeCondition input analyzed = .ok analyzed ∧ condition.Rewritten input analyzed := by
  obtain ⟨first, type, typed, boolean⟩ := condition_typed done
  refine ⟨bind_of_ok (Expr.qualify_again condition analyzed first) (bind_of_ok typed ?_),
    Expr.qualify_rewrites condition analyzed first⟩
  rcases boolean with rfl | rfl <;> rfl

theorem order_again {item analyzed : OrderItem} (done : analyzeOrder output item = .ok analyzed) :
    analyzeOrder output analyzed = .ok analyzed ∧ item.key.Rewritten output analyzed.key ∧
      analyzed.descending = item.descending := by
  obtain ⟨key, first, done⟩ := ok_of_bind done
  obtain ⟨type, typed, done⟩ := ok_of_bind done
  have settled (sorts : type ≠ some .idSet ∧ type ≠ some .stringSet) :
      analyzeOrder output ⟨key, item.descending⟩ = .ok ⟨key, item.descending⟩ := by
    refine bind_of_ok (Expr.qualify_again item.key key first) (bind_of_ok typed ?_)
    split
    · exact absurd rfl sorts.1
    · exact absurd rfl sorts.2
    · rfl
  split at done
  · cases done
  · cases done
  · rename_i noIds noStrings
    cases done
    exact ⟨settled ⟨noIds, noStrings⟩, Expr.qualify_rewrites item.key key first, rfl⟩

theorem projection_again {projection : List SelectItem} {expanded : List (List SelectItem)}
    (done : projection.mapM (SelectItem.analyze input) = .ok expanded)
    (described : outputSchema expanded.flatten input = .ok output) :
    (∃ again, expanded.flatten.mapM (SelectItem.analyze input) = .ok again ∧ again.flatten = expanded.flatten) ∧
      List.Forall₂ (SelectItem.Rewritten input) projection expanded := by
  have declared := described_each described
  constructor
  · refine ⟨expanded.flatten.map ([·]), map_m_ok_iff.mpr ?_, List.flatMap_singleton' _⟩
    rw [List.forall₂_map_right_iff, List.forall₂_same]
    intro item member
    obtain ⟨items, among, inside⟩ := List.mem_flatten.mp member
    obtain ⟨written, -, analysis⟩ := map_m_ok_origin done items among
    exact SelectItem.analyze_again written items analysis item inside (declared item member)
  · refine forall₂_imp_of_mem (map_m_ok_iff.mp done) fun item items among analysis => ?_
    refine SelectItem.analyze_rewrites item items analysis fun inner inside => ?_
    exact declared inner (List.mem_flatten.mpr ⟨items, among, inside⟩)

theorem analyze_again {scope : Scope} {query analyzed : Select} (done : query.analyze scope = .ok analyzed) :
    analyzed.analyze scope = .ok analyzed ∧ ∃ input output, query.input scope = .ok input ∧
      outputSchema analyzed.projection input = .ok output ∧ query.Rewritten input output analyzed := by
  obtain ⟨input, known, done⟩ := ok_of_bind done
  obtain ⟨expanded, projected, done⟩ := ok_of_bind done
  obtain ⟨condition?, conditioned, done⟩ := ok_of_bind done
  obtain ⟨output, described, done⟩ := ok_of_bind done
  obtain ⟨orderBy, ordered, done⟩ := ok_of_bind done
  cases done
  obtain ⟨⟨again, projected', same⟩, rewritten⟩ := projection_again projected described
  have condition : condition?.mapM (analyzeCondition input) = .ok condition? ∧
      Option.Rel (Expr.Rewritten input) query.condition? condition? := by
    cases written : query.condition? with
    | none =>
        rw [written] at conditioned
        cases conditioned
        exact ⟨rfl, .none⟩
    | some condition =>
        rw [written] at conditioned
        obtain ⟨analyzed, first, rfl⟩ := ok_of_map conditioned
        obtain ⟨settled, rewritten⟩ := condition_again first
        exact ⟨bind_of_ok settled rfl, .some rewritten⟩
  have order := (map_m_ok_iff.mp ordered).imp fun _ _ own => (order_again own).2
  refine ⟨bind_of_ok known (bind_of_ok projected' (bind_of_ok condition.1 ?_)), input, output, known, described,
    ⟨expanded, rewritten, rfl⟩, condition.2, order, rfl, rfl, rfl⟩
  rw [same]
  refine bind_of_ok described (bind_of_ok (map_m_ok_iff.mpr (List.forall₂_same.mpr fun item member => ?_)) rfl)
  obtain ⟨written, -, own⟩ := map_m_ok_origin ordered item member
  exact (order_again own).1

end Select

namespace Insertion

variable {table : Table} {targets : List Field}

-- The literal of a value is converted, all else stays; what the checks then let pass is not changed by them.
theorem value_again {e analyzed : Expr} {field : Field} (done : analyzeValue e field = .ok analyzed) :
    analyzeValue analyzed field = .ok analyzed := by
  obtain ⟨converted, first, checked⟩ := ok_of_bind done
  have kept : analyzed = converted := by
    obtain ⟨type, -, checked⟩ := ok_of_bind checked
    split at checked
    · split at checked
      · exact (Except.ok.inj checked).symm
      · cases checked
    · split at checked
      · cases checked
      · exact (Except.ok.inj checked).symm
    · exact (Except.ok.inj checked).symm
  subst kept
  refine bind_of_ok ?_ checked
  cases e with
  | literal v =>
      obtain ⟨w, converts, rfl⟩ := ok_of_map first
      have again := Value.coerce_ok_iff.mpr (Value.convert_again (Value.coerce_ok_iff.mp converts))
      exact congrArg (Except.map Expr.literal) again
  | column | binary | not | isNull =>
      cases first
      rfl

theorem row_again {row analyzed : List Expr} {i : Nat} (done : analyzeRow targets row i = .ok analyzed) (j : Nat) :
    analyzeRow targets analyzed j = .ok analyzed := by
  rw [analyzeRow] at done
  split at done
  · rename_i long
    have each := map_m_ok_iff.mp done
    have long' : analyzed.length = targets.length := by
      rw [← each.length_eq, List.length_zip, long, Nat.min_self]
    rw [analyzeRow, if_pos long', map_m_ok_iff]
    have values : (analyzed.zip targets).map (·.1) = analyzed := List.map_fst_zip (Nat.le_of_eq long')
    nth_rewrite 2 [← values]
    rw [List.forall₂_map_right_iff, List.forall₂_same]
    intro entry member
    obtain ⟨k, found⟩ := List.mem_iff_getElem?.mp member
    obtain ⟨own, target⟩ := List.getElem?_zip_eq_some.mp found
    obtain ⟨before, paired, value⟩ := forall₂_at each.flip k entry.1 own
    obtain ⟨-, target'⟩ := List.getElem?_zip_eq_some.mp paired
    rw [Option.some.inj (target'.symm.trans target)] at value
    exact value_again value
  · cases done

theorem rows_again {rows analyzed : List (List Expr)}
    (done : rows.zipIdx.mapM (fun entry => analyzeRow targets entry.1 entry.2) = .ok analyzed) :
    analyzed.zipIdx.mapM (fun entry => analyzeRow targets entry.1 entry.2) = .ok analyzed := by
  rw [map_m_ok_iff]
  have values : analyzed.zipIdx.map (·.1) = analyzed := List.zipIdx_map_fst 0 analyzed
  nth_rewrite 2 [← values]
  rw [List.forall₂_map_right_iff, List.forall₂_same]
  intro entry member
  have among : entry.1 ∈ analyzed := values ▸ List.mem_map_of_mem member
  obtain ⟨row, -, own⟩ := map_m_ok_origin done entry.1 among
  exact row_again own entry.2

-- The names of targets, of which no two are stored under one key, name them.
theorem named_again (apart : table.Apart) (listed : ∀ field ∈ targets, field ∈ table.fields)
    (distinct : targets.Pairwise Field.Apart) (seen : List String)
    (unseen : ∀ field ∈ targets, Text.lower field.name ∉ seen) :
    targetsFrom table seen (targets.map (·.name)) = .ok targets := by
  induction targets generalizing seen with
  | nil => rfl
  | cons field rest ih =>
      obtain ⟨own, listed⟩ := List.forall_mem_cons.mp listed
      obtain ⟨new, unseen⟩ := List.forall_mem_cons.mp unseen
      obtain ⟨other, distinct⟩ := List.pairwise_cons.mp distinct
      have found : table.field? field.name = some field := by
        cases found : table.field? field.name with
        | none =>
            have differs := Table.field_none found field own
            rw [Text.same_refl] at differs
            cases differs
        | some first =>
            obtain ⟨among, same⟩ := Table.field_named found
            rw [Table.same_key apart first field among own (Text.lower_of_same _ _ same)]
      have rest' := ih listed distinct (Text.lower field.name :: seen) fun later member held => by
        rcases List.mem_cons.mp held with same | before
        · exact other later member same.symm
        · exact unseen later member before
      rw [List.map_cons, targetsFrom, found]
      dsimp only
      rw [if_neg fun known => new (List.contains_iff_mem.mp known)]
      exact bind_of_ok rest' rfl

theorem targets_again {columns : List String} (apart : table.Apart)
    (targeted : Insertion.targets table columns = .ok targets) (checked : checkTargets table targets = .ok ()) :
    Insertion.targets table (targets.map (·.name)) = .ok targets := by
  have some : (targets.map (·.name)).isEmpty = false := by
    cases targets with
    | nil => cases checked
    | cons field rest => rfl
  rw [Insertion.targets, some]
  exact named_again apart (targets_listed targeted) (targets_apart apart targeted) [] fun _ _ => List.not_mem_nil

theorem analyze_again {scope : Scope} {name : String} {columns : List String} {rows : List (List Expr)}
    {analyzed : Statement} (apart : scope.catalog.Apart)
    (own : ∀ table, scope.table name = .ok table → scope.table table.name = .ok table)
    (done : Insertion.analyze scope name columns rows = .ok analyzed) : analyzed.analyze scope = .ok analyzed := by
  obtain ⟨table, found, done⟩ := ok_of_bind done
  obtain ⟨targets, targeted, done⟩ := ok_of_bind done
  obtain ⟨⟨⟩, checked, done⟩ := ok_of_bind done
  obtain ⟨rows', analysis, done⟩ := ok_of_bind done
  cases done
  obtain ⟨id, held⟩ := Scope.table_found found
  exact bind_of_ok (own table found) (bind_of_ok (targets_again (apart id table held) targeted checked)
    (bind_of_ok checked (bind_of_ok (rows_again analysis) rfl)))

end Insertion

namespace Statement

-- Whether the table of an insertion, once it is found, is found under its own name.
def FindsNamed (scope : Scope) : Statement → Prop
  | .insert name _ _ => ∀ table, scope.table name = .ok table → scope.table table.name = .ok table
  | _ => True

-- A table of the database at hand is, as its id is a hash of its own name.
theorem finds_named {scope : Scope} (derived : scope.catalog.Derived) {name : String} {table : Table} {owner : Database}
    (found : scope.table name = .ok table) (named : scope.catalog.databaseNamed scope.database = .ok owner)
    (within : table.database = owner.id) : scope.table table.name = .ok table := by
  obtain ⟨other, named', held⟩ := Catalog.table_named_found (Catalog.ask_ok found)
  obtain rfl : owner = other := Except.ok.inj (named.symm.trans named')
  obtain ⟨-, hashed⟩ := derived.tables _ table held
  have found' : scope.catalog.tableNamed scope.database table.name = .ok table := by
    refine bind_of_ok named ?_
    rw [← within, ← hashed, held]
    rfl
  rw [Scope.table, found']
  rfl

theorem analysis_settled (scope : Scope) (apart : scope.catalog.Apart) (statement analyzed : Statement)
    (finds : statement.FindsNamed scope) (done : statement.analyze scope = .ok analyzed) :
    analyzed.analyze scope = .ok analyzed ∧
      ∀ query, statement = .select query → ∃ query' input output, analyzed = .select query' ∧
        query.input scope = .ok input ∧ outputSchema query'.projection input = .ok output ∧
          query.Rewritten input output query' := by
  have unchanged (same : analyzed = statement) (other : ∀ query, statement ≠ .select query) :
      analyzed.analyze scope = .ok analyzed ∧
        ∀ query, statement = .select query → ∃ query' input output, analyzed = .select query' ∧
          query.input scope = .ok input ∧ outputSchema query'.projection input = .ok output ∧
            query.Rewritten input output query' := by
    subst same
    exact ⟨done, fun query selects => absurd selects (other query)⟩
  cases statement with
  | select query =>
      obtain ⟨query', first, rfl⟩ := ok_of_map done
      obtain ⟨again, input, output, known, described, rewritten⟩ := Select.analyze_again first
      refine ⟨congrArg (Except.map select) again, ?_⟩
      rintro _ ⟨⟩
      exact ⟨query', input, output, rfl, known, described, rewritten⟩
  | insert name columns rows => exact ⟨Insertion.analyze_again apart finds done, nofun⟩
  | createTable | alterTable =>
      obtain ⟨_, -, done⟩ := ok_of_bind done
      obtain ⟨_, -, done⟩ := ok_of_bind done
      exact unchanged (Except.ok.inj done).symm nofun
  | alterDatabase | showTables | showColumns =>
      obtain ⟨_, -, done⟩ := ok_of_bind done
      exact unchanged (Except.ok.inj done).symm nofun
  | dropTable name ifExists | dropDatabase name ifExists =>
      cases ifExists with
      | true => exact unchanged (Except.ok.inj done).symm nofun
      | false =>
          obtain ⟨_, -, done⟩ := ok_of_bind done
          exact unchanged (Except.ok.inj done).symm nofun
  | createDatabase | showDatabases | createView | createFunction | createModel | delete =>
      exact unchanged (Except.ok.inj done).symm nofun

-- A name of a table in one database that has the id of another name in the other one.
def sharedChanges : List CatalogChange :=
  [.createDatabase "north" .empty, .createDatabase "south" .empty,
    .createTable "north" "115c6fec7fb90695" [⟨"_id", .id, false⟩, ⟨"Count", .int, true⟩] none]

def sharedScope (database : String) : Scope := ⟨.after sharedChanges, database, none⟩

def sharedTable : Table :=
  ⟨"115c6fec7fb90695", .ofName (.ofName "north") "115c6fec7fb90695", .ofName "north",
    [⟨"_id", .id, false⟩, ⟨"Count", .int, true⟩], none⟩

theorem shared_apart (database : String) : (sharedScope database).catalog.Apart := by
  intro id table held
  have own : ∀ table ∈ (Catalog.after sharedChanges).tables.items, table.Apart := by decide +kernel
  exact own table ((SortedMap.mem_items _ table).mpr ⟨id, held⟩)

-- Where the table is, it is found under each spelling of its name.
theorem shared_found : (sharedScope "north").table "115C6FEC7FB90695" = .ok sharedTable ∧
    (sharedScope "north").table "115c6fec7fb90695" = .ok sharedTable := by
  constructor <;> decide +kernel

def sharedInsert : Statement := .insert "115C6FEC7FB90695" ["COUNT", "_id"] [[.literal .null, .literal (.int 1)]]

-- An id is compared with an integer, which makes another integer of it, and the sort key is an alias.
def sharedSelect : Select :=
  ⟨false, [.wildcard (some "T"), .expr (.column none "COUNT") (some "n")], some ⟨"115C6FEC7FB90695", some "t"⟩,
    some (.binary (.literal (.id 5)) .lt (.column (some "T") "count")), [⟨.column none "N", true⟩], none⟩

theorem shared_settled :
    (∃ analyzed, sharedInsert.analyze (sharedScope "north") = .ok analyzed ∧
      analyzed.analyze (sharedScope "north") = .ok analyzed) ∧
    ∃ analyzed, (Statement.select sharedSelect).analyze (sharedScope "north") = .ok analyzed ∧
      analyzed.analyze (sharedScope "north") = .ok analyzed ∧ ∃ query' input output, analyzed = .select query' ∧
        sharedSelect.input (sharedScope "north") = .ok input ∧ outputSchema query'.projection input = .ok output ∧
          sharedSelect.Rewritten input output query' := by
  obtain ⟨found, again⟩ := shared_found
  constructor
  · have analyzes : (sharedInsert.analyze (sharedScope "north")).isOk = true := by decide +kernel
    cases done : sharedInsert.analyze (sharedScope "north") with
    | error cause =>
        rw [done] at analyzes
        cases analyzes
    | ok analyzed =>
        have finds : sharedInsert.FindsNamed (sharedScope "north") := by
          intro table held
          cases found.symm.trans held
          exact again
        exact ⟨analyzed, rfl, (analysis_settled _ (shared_apart _) sharedInsert analyzed finds done).1⟩
  · have analyzes : ((Statement.select sharedSelect).analyze (sharedScope "north")).isOk = true := by decide +kernel
    cases done : (Statement.select sharedSelect).analyze (sharedScope "north") with
    | error cause =>
        rw [done] at analyzes
        cases analyzes
    | ok analyzed =>
        obtain ⟨settled, rewritten⟩ := analysis_settled _ (shared_apart _) (.select sharedSelect) analyzed trivial done
        exact ⟨analyzed, rfl, settled, rewritten sharedSelect rfl⟩

-- In the other database the table is found under a name that only shares its id, and then not under its own.
theorem shared_id_unsettled : (sharedScope "south").catalog.Apart ∧
    ∃ analyzed, (Statement.insert "53bc9b8d904531a1" ["_id"] [[.literal (.id 1)]]).analyze (sharedScope "south") =
      .ok analyzed ∧ analyzed.analyze (sharedScope "south") = .error (.catalog (.tableNameMissing "115c6fec7fb90695")) := by
  have found : (sharedScope "south").table "53bc9b8d904531a1" = .ok sharedTable := by decide +kernel
  have missing : (sharedScope "south").table "115c6fec7fb90695" =
      .error (.catalog (.tableNameMissing "115c6fec7fb90695")) := by decide +kernel
  have targeted : Insertion.targets sharedTable ["_id"] = .ok [⟨"_id", .id, false⟩] := by decide +kernel
  have checked : Insertion.checkTargets sharedTable [⟨"_id", .id, false⟩] = .ok () := by decide +kernel
  refine ⟨shared_apart _, .insert "115c6fec7fb90695" ["_id"] [[.literal (.id 1)]],
    bind_of_ok found (bind_of_ok targeted (bind_of_ok checked (bind_of_ok rfl rfl))), ?_⟩
  change ((sharedScope "south").table "115c6fec7fb90695" >>= _) = _
  rw [missing]
  rfl

end Statement

end ShardQuery
