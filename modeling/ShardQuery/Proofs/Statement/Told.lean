import ShardQuery.Proofs.Cursor.Distinct
import ShardQuery.Proofs.Cursor.Telling
import ShardQuery.Proofs.Statement.Answered
import ShardQuery.Proofs.Statement.Ordered
/-!
What the plan of a query comes to, failures included. Main statement: its stream tells what the analyzed query means on
the records of its table, however they are placed.
-/

set_option autoImplicit false

namespace ShardQuery

-- Shards that can all be read, one after the other.
theorem Stream.of_parts_whole {α : Type} {read : α → Outcome (List Row)} {pending : List α} {shards : List (List Row)}
    (done : pending.mapM read = .ok shards) : Stream.ofParts (pending.map read) = ⟨shards.flatten, []⟩ := by
  induction map_m_ok_iff.mp done with
  | nil => rfl
  | cons first others ih =>
      rw [List.map_cons, first, Stream.ofParts, ih (map_m_ok_iff.mpr others)]
      rfl

namespace Select

variable {query analyzed : Select} {input output : Schema} {ctx : Context} {base : Engine} {records : List Row}

section Images

def taken (query : Select) (input : Schema) (record : Row) : Bool := (query.keeps input record).toOption.getD false

def image (query : Select) (input : Schema) (record : Row) : Row := (query.imageIn input record).toOption.getD default

-- The condition has a value on the record, and so has the projection if it is true.
def Evaluable (query : Select) (input : Schema) (record : Row) : Prop :=
  query.keeps input record = .ok (query.taken input record) ∧
    (query.taken input record = true → query.imageIn input record = .ok (query.image input record))

theorem images_ok_iff {rows : List Row} : query.images input records = .ok rows ↔
    (∀ record ∈ records, query.Evaluable input record) ∧
      rows = (records.filter (query.taken input)).map (query.image input) := by
  constructor
  · intro evaluated
    obtain ⟨kept, filtered, evaluated⟩ := ok_of_bind evaluated
    obtain ⟨keep, judged, rfl⟩ := filter_m_ok filtered
    obtain ⟨picture, pictured, rfl⟩ := map_m_ok_image evaluated
    have same (record : Row) (listed : record ∈ records) : query.taken input record = keep record :=
      (ok_get_default false (judged record listed)).2
    have same' (record : Row) (listed : record ∈ records.filter keep) : query.image input record = picture record :=
      (ok_get_default default (pictured record listed)).2
    refine ⟨fun record listed => ⟨?_, fun holds => ?_⟩, ?_⟩
    · rw [same record listed, judged record listed]
    · rw [same record listed] at holds
      have own := List.mem_filter.mpr ⟨listed, holds⟩
      rw [same' record own, pictured record own]
    · rw [List.filter_congr same]
      exact List.map_congr_left fun record own => (same' record own).symm
  · rintro ⟨evaluable, rfl⟩
    refine bind_of_ok (filter_m_of_ok fun record listed => (evaluable record listed).1) (map_m_ok_iff.mpr ?_)
    rw [List.forall₂_map_right_iff, List.forall₂_same]
    intro record member
    obtain ⟨listed, holds⟩ := List.mem_filter.mp member
    exact (evaluable record listed).2 holds

-- Records can be put together before or after their images are made.
theorem images_parts (query : Select) (input : Schema) (parts : List (List Row)) :
    Agree Eq ((parts.mapM fun part => (query.images input part).map query.merged).map fun rows => query.merged rows.flatten)
      ((query.images input parts.flatten).map query.merged) := by
  have whole : (parts.flatten.filter (query.taken input)).map (query.image input) =
      (parts.map fun part => (part.filter (query.taken input)).map (query.image input)).flatten := by
    rw [List.filter_flatten, List.map_flatten, List.map_map]
    rfl
  refine agree_of_ok (fun rows done => ?_) fun rows done => ?_
  · obtain ⟨outcomes, made, rfl⟩ := ok_of_map done
    have each : List.Forall₂ (fun part rows => (∀ record ∈ part, query.Evaluable input record) ∧
        query.merged ((part.filter (query.taken input)).map (query.image input)) = rows) parts outcomes := by
      refine (map_m_ok_iff.mp made).imp fun part rows own => ?_
      obtain ⟨images, evaluated, rfl⟩ := ok_of_map own
      obtain ⟨evaluable, rfl⟩ := images_ok_iff.mp evaluated
      exact ⟨evaluable, rfl⟩
    have evaluable : ∀ record ∈ parts.flatten, query.Evaluable input record := by
      intro record listed
      obtain ⟨part, among, inside⟩ := List.mem_flatten.mp listed
      obtain ⟨_, -, own, -⟩ := forall₂_origin each.flip part among
      exact own record inside
    have same : outcomes =
        parts.map fun part => query.merged ((part.filter (query.taken input)).map (query.image input)) := by
      rw [← List.forall₂_eq_eq_eq, List.forall₂_map_right_iff]
      exact each.flip.imp fun _ _ own => own.2.symm
    refine ⟨_, congrArg (Except.map query.merged) (images_ok_iff.mpr ⟨evaluable, rfl⟩), ?_⟩
    have merges := merged_parts query (parts.map fun part => (part.filter (query.taken input)).map (query.image input))
    rw [List.map_map] at merges
    rw [whole, ← merges, same]
    rfl
  · obtain ⟨images, evaluated, -⟩ := ok_of_map done
    obtain ⟨evaluable, -⟩ := images_ok_iff.mp evaluated
    obtain ⟨outcomes, made⟩ := map_m_ok_total.mpr fun part among =>
      show ∃ rows, (query.images input part).map query.merged = .ok rows by
        have own := fun record inside => evaluable record (List.mem_flatten.mpr ⟨part, among, inside⟩)
        exact ⟨_, congrArg (Except.map query.merged) (images_ok_iff.mpr ⟨own, rfl⟩)⟩
    exact ⟨_, congrArg (Except.map _) made⟩

end Images

-- On a record that fits, an analyzed condition is judged as it is written.
theorem condition_judges {condition written : Expr} (done : analyzeCondition input written = .ok condition)
    {bound : PlanExpr} (binds : condition.bind input = .ok bound) {record : Row} (fits : record.Fits input) :
    bound.isTrue record none = (condition.valueIn input record).map fun v => v.asBool? == some true := by
  obtain ⟨-, type, typed, boolean⟩ := condition_typed done
  rw [PlanExpr.isTrue, Expr.bind_value condition bound binds]
  cases evaluated : condition.valueIn input record with
  | error e => rfl
  | ok v =>
      have sound := Expr.type_sound fits condition type v typed evaluated
      cases v with
      | null => rfl
      | bool b => cases b <;> rfl
      | int | id | decimal | string | timestamp | idSet | stringSet =>
          rcases sound with impossible | typed
          · cases impossible
          · rcases boolean with rfl | rfl
            · cases typed
            · cases typed

-- Bound items have the values that the items stand for.
theorem image_bound {exprs : List PlanExpr} (binds : query.projection.mapM (SelectItem.bind input) = .ok exprs)
    (record : Row) : (exprs.mapM (PlanExpr.eval record none)).map Row.mk = query.imageIn input record := by
  have values (items : List SelectItem) (exprs : List PlanExpr)
      (bound : List.Forall₂ (fun (item : SelectItem) expr => item.bind input = .ok expr) items exprs) :
      items.mapM (SelectItem.valuesIn input record) =
        (exprs.mapM (PlanExpr.eval record none)).map fun values => values.map ([·]) := by
    induction bound with
    | nil => rfl
    | @cons item expr items exprs own _ ih =>
        rw [List.mapM_cons, List.mapM_cons, ih]
        cases item with
        | wildcard => cases own
        | expr e label =>
            rw [SelectItem.valuesIn, ← Expr.bind_value e expr own]
            cases expr.eval record none with
            | error e => rfl
            | ok v => cases exprs.mapM (PlanExpr.eval record none) <;> rfl
  rw [imageIn, values _ _ (map_m_ok_iff.mp binds)]
  cases exprs.mapM (PlanExpr.eval record none) with
  | error e => rfl
  | ok values =>
      change Except.ok (Row.mk values) = Except.ok ⟨(values.map ([·])).flatten⟩
      rw [← List.flatMap_def, List.flatMap_singleton']

section Compiled

theorem condition_told (analysis : query.Analysis analyzed input output) {source filtered : Plan}
    (own : source.schema = input) (whole : source.stream base none ctx = .ok ⟨records, []⟩)
    (fits : ∀ record ∈ records, record.Fits input)
    (compiled : (match analyzed.condition? with
      | some condition => (condition.bind source.schema).map fun predicate => .filter predicate source
      | none => .ok source : Outcome Plan) = .ok filtered) :
    ∃ stream, filtered.stream base none ctx = .ok stream ∧ stream.Tells (records.filterM (analyzed.keeps input)) ∧
      (records.length ≤ 1 → stream.Single) := by
  subst own
  have single : records.length ≤ 1 → (⟨records, []⟩ : Stream).Single := fun few => ⟨fun failing => absurd rfl failing, few⟩
  have conditioned := analysis.conditioned
  cases written : query.condition? with
  | none =>
      rw [written] at conditioned
      have unconditional := (Except.ok.inj conditioned).symm
      rw [unconditional] at compiled
      cases compiled
      have all : records.filterM (analyzed.keeps source.schema) = .ok (records.filter fun _ => true) :=
        filter_m_of_ok fun record _ => by rw [keeps, unconditional]
      rw [all, List.filter_true]
      exact ⟨_, whole, rfl, single⟩
  | some given =>
      rw [written] at conditioned
      obtain ⟨condition, done, conditioned⟩ := ok_of_bind conditioned
      have conditional := (Except.ok.inj conditioned).symm
      rw [conditional] at compiled
      obtain ⟨bound, binds, rfl⟩ := ok_of_map compiled
      have same : records.filterM (analyzed.keeps source.schema) = records.filterM (bound.isTrue · none) := by
        refine filter_m_congr fun record listed => ?_
        rw [condition_judges done binds (fits record listed), keeps, conditional]
      refine ⟨(⟨records, []⟩ : Stream).keep (bound.isTrue · none), ?_, ?_, fun few => Stream.keep_single _ (single few)⟩
      · rw [Plan.stream, whole]
        rfl
      · rw [same]
        have tells : (⟨records, []⟩ : Stream).Tells (.ok records) := rfl
        exact Stream.keep_tells _ tells

-- What an analyzed projection makes of a record fits the output.
theorem image_fits (described : outputSchema analyzed.projection input = .ok output) {record row : Row}
    (fits : record.Fits input) (evaluated : analyzed.imageIn input record = .ok row) : row.Fits output := by
  obtain ⟨values, valued, rfl⟩ := ok_of_map evaluated
  have each : List.Forall₂ (fun (column : Column) values => List.Forall₂ (fun column (v : Value) => v.Of (some column.type))
      [column] values) output.columns values := by
    refine forall₂_join (described_iff.mp described) (map_m_ok_iff.mp valued) fun item column _ values _ declared given => ?_
    cases item with
    | wildcard => cases declared
    | expr e label =>
        obtain ⟨v, own, rfl⟩ := ok_of_map given
        exact .cons (SelectItem.column_sound fits declared (SelectItem.expr_gives own)) .nil
  have flat := List.rel_flatten (List.forall₂_map_left_iff.mpr each)
  rw [← List.flatMap_def, List.flatMap_singleton'] at flat
  exact flat.flip

theorem images_fit_output (described : outputSchema analyzed.projection input = .ok output)
    (fits : ∀ record ∈ records, record.Fits input) {images : List Row}
    (evaluated : analyzed.images input records = .ok images) : ∀ row ∈ analyzed.merged images, row.Fits output := by
  intro row member
  obtain ⟨evaluable, rfl⟩ := images_ok_iff.mp evaluated
  obtain ⟨record, kept, rfl⟩ := List.mem_map.mp (mem_merged _ row member)
  obtain ⟨listed, holds⟩ := List.mem_filter.mp kept
  exact image_fits described (fits record listed) ((evaluable record listed).2 holds)

-- What a query hands out: a window of no rows asks for none, so nothing can keep it from them.
def handed (query : Select) (input output : Schema) (records : List Row) : Outcome (List Row) :=
  if query.window?.any (·.limit.toNat == 0) then .ok [] else query.answer input output records

-- The rows of a query, before its window.
def unwindowed (query : Select) (input output : Schema) (records : List Row) : Outcome (List Row) :=
  ((query.images input records).map query.merged) >>= query.sorted output

theorem answer_windowed (query : Select) (input output : Schema) (records : List Row) :
    query.answer input output records = (query.unwindowed input output records).map query.windowed := by
  rw [answer, unwindowed]
  cases query.images input records with
  | error e => rfl
  | ok images =>
      change (query.sorted output (query.merged images) >>= fun rows => .ok (query.windowed rows)) =
        (query.sorted output (query.merged images)).map query.windowed
      cases query.sorted output (query.merged images) with
      | ok rows => rfl
      | error e => rfl

theorem sorted_same {rows : List Row} (none : query.orderBy = []) : query.sorted output rows = .ok rows := by
  obtain ⟨sorted, done⟩ := sorted_total.mpr fun row (_ : row ∈ rows) => ⟨[], by rw [keysIn, none]; rfl⟩
  rw [done, sorted_unordered none done]

theorem sorted_told (analysis : query.Analysis analyzed input output) (fits : ∀ record ∈ records, record.Fits input)
    {keys : List SortKey}
    (binds : (analyzed.orderBy.mapM fun item => do return (⟨← item.key.bind output, item.descending⟩ : SortKey)) =
      Except.ok keys) {rows : Plan} {stream : Stream} (streams : rows.stream base none ctx = .ok stream)
    (tells : stream.Tells ((analyzed.images input records).map analyzed.merged)) (abrupt : stream.Abrupt) :
    ∃ sorted, (if keys.isEmpty then rows else .orderBy keys rows : Plan).stream base none ctx = .ok sorted ∧
      sorted.Tells (analyzed.unwindowed input output records) ∧ sorted.Abrupt := by
  rw [unwindowed]
  split
  · rename_i none
    have unordered : analyzed.orderBy = [] := by
      have counted := (map_m_ok_iff.mp binds).length_eq
      rw [List.isEmpty_iff.mp none] at counted
      exact List.length_eq_zero_iff.mp counted
    refine ⟨stream, streams, Stream.tells_agree tells ?_, abrupt⟩
    cases (analyzed.images input records).map analyzed.merged with
    | error e => trivial
    | ok merged => exact agree_of_eq (sorted_same unordered).symm
  · refine ⟨stream.arranged (SortKey.sortRows keys none), by rw [Plan.stream, streams]; rfl, ?_,
      Stream.arranged_abrupt _ _⟩
    refine Stream.tells_agree (Stream.arranged_tells _ tells) ?_
    cases evaluated : analyzed.images input records with
    | error e => trivial
    | ok images =>
        exact agree_of_eq (sort_rows_sorted analysis.ordered binds (images_fit_output analysis.described fits evaluated))

-- A window is a limit of its plan.
theorem cut_told {window : Window} (limited : analyzed.window? = some window) {stream : Stream}
    {outcome : Outcome (List Row)} (tells : stream.Tells outcome) (abrupt : stream.Abrupt) :
    (stream.within window.offset.toNat window.limit.toNat).Tells
      (if analyzed.window?.any (·.limit.toNat == 0) then .ok [] else outcome.map analyzed.windowed) := by
  have cut : analyzed.windowed = fun rows => (rows.drop window.offset.toNat).take window.limit.toNat := by
    funext rows
    rw [windowed, limited]
  have within := Stream.within_tells window.offset.toNat window.limit.toNat abrupt tells
  rw [cut, limited]
  by_cases none : window.limit.toNat = 0
  · rw [if_pos none] at within
    rw [if_pos (by simp [none])]
    exact within
  · rw [if_neg none] at within
    rw [if_neg (by simp [none])]
    exact within

theorem uncut_told (unlimited : analyzed.window? = none) {stream : Stream} {outcome : Outcome (List Row)}
    (tells : stream.Tells outcome) :
    stream.Tells (if analyzed.window?.any (·.limit.toNat == 0) then .ok [] else outcome.map analyzed.windowed) := by
  have whole : analyzed.windowed = id := by
    funext rows
    rw [windowed, unlimited]
    rfl
  rw [whole, unlimited]
  refine Stream.tells_agree tells ?_
  cases outcome with
  | ok rows => rfl
  | error e => trivial

end Compiled

section Executed

variable (valid : base.config.validate = .ok ())
  (usable : base.CanSpill)

include valid usable

-- A plan whose stream tells an outcome, less its duplicates where the query wants none.
theorem merge_told (analyzed : Select) {plan : Plan} {stream : Stream} {outcome : Outcome (List Row)}
    (streams : plan.stream base none ctx = .ok stream) (tells : stream.Tells outcome) :
    ∃ merged, (if analyzed.distinct then Plan.distinct plan else plan).stream base none ctx = .ok merged ∧
      merged.Tells (outcome.map analyzed.merged) ∧ (stream.Abrupt → merged.Abrupt) := by
  have each : analyzed.merged = if analyzed.distinct then Row.firstOccurrences else id := by
    funext rows
    rw [merged]
    split
    · rfl
    · rfl
  rw [each]
  split
  · obtain ⟨index, _, _, made, -⟩ := Source.of_config_holds base.config base.directories valid usable
    refine ⟨stream.distinct, ?_, Stream.distinct_tells tells, Stream.distinct_abrupt⟩
    rw [Plan.stream, streams]
    change (HashIndex.ofConfig base.config base.directories >>= fun _ => Except.ok stream.distinct) = _
    rw [made]
    rfl
  · refine ⟨stream, streams, ?_, id⟩
    cases outcome with
    | ok rows => exact tells
    | error e => exact tells

theorem local_told (analysis : query.Analysis analyzed input output) {source plan : Plan}
    (own : source.schema = input) (compiled : analyzed.compileLocal source = .ok plan)
    (whole : source.stream base none ctx = .ok ⟨records, []⟩) (fits : ∀ record ∈ records, record.Fits input) :
    ∃ stream, plan.stream base none ctx = .ok stream ∧
      stream.Tells ((analyzed.images input records).map analyzed.merged) ∧ (records.length ≤ 1 → stream.Abrupt) := by
  subst own
  obtain ⟨filtered, condition, compiled⟩ := ok_of_bind compiled
  obtain ⟨exprs, binds, compiled⟩ := ok_of_bind compiled
  obtain ⟨described, known, compiled⟩ := ok_of_bind compiled
  obtain ⟨kept, streams, tells, single⟩ := condition_told analysis rfl whole fits condition
  have sized : exprs.length = described.size :=
    (map_m_ok_iff.mp binds).length_eq.symm.trans (described_iff.mp known).length_eq
  have projected : (Plan.project exprs described filtered).stream base none ctx =
      .ok (kept.through (analyzed.imageIn source.schema)) := by
    rw [Plan.stream, if_pos sized, streams]
    simp only [image_bound binds]
    rfl
  have plans : plan = if analyzed.distinct then .distinct (.project exprs described filtered) else
      .project exprs described filtered := (Except.ok.inj compiled).symm
  rw [plans]
  obtain ⟨merged, streams', tells', abrupt⟩ :=
    merge_told valid usable analyzed projected (Stream.through_tells (analyzed.imageIn source.schema) tells)
  exact ⟨merged, streams', tells', fun few => abrupt (Stream.through_single _ (single few)).1⟩

theorem scattered_told (analysis : query.Analysis analyzed input output) {written : List LogEntry}
    (unbound : ctx.cluster = []) (mirrors : base.store.Mirrors written) (table : Table) (relation : String)
    (own : table.schema relation = input) {here : Plan}
    (compiled : analyzed.compileLocal (compileScan table relation) = .ok here)
    (fits : ∀ record ∈ base.store.tableRows table.id (table.fields.map (·.name)), record.Fits input) :
    ∃ stream, (if analyzed.distinct then Plan.distinct (.fanOut table.id here)
          else .fanOut table.id here).stream base none ctx = .ok stream ∧
      stream.Tells ((analyzed.images input (base.store.tableRows table.id (table.fields.map (·.name)))).map analyzed.merged) ∧
      stream.Abrupt := by
  have shaped : (compileScan table relation).schema = input := own
  obtain ⟨nodes, parts, placed, whole, reads⟩ := Store.placement_reads (Store.mirrors_orderly mirrors) table.id
    (table.fields.map (·.name))
  rw [← whole] at fits ⊢
  let onNode (node : ClusterNode) := (Stream.ofStart (here.stream base none (ctx.onNode nodes node))).from node
  have everywhere : (Plan.fanOut table.id here).stream base none ctx = .ok (.together (nodes.map onNode)) := by
    rw [Plan.stream, Source.nodesFor, unbound, placed]
    rfl
  have told : List.Forall₂ (fun (part : Stream) rows => part.Tells ((analyzed.images input rows).map analyzed.merged))
      (nodes.map onNode) parts := by
    rw [List.forall₂_map_left_iff]
    refine forall₂_imp_of_mem reads ?_
    rintro node _ member ⟨shards, read, rfl⟩
    have scanned : (compileScan table relation).stream base none (ctx.onNode nodes node) = .ok ⟨shards.flatten, []⟩ :=
      congrArg Except.ok (Stream.of_parts_whole read)
    obtain ⟨stream, streams, tells, -⟩ := local_told valid usable analysis shaped compiled scanned
      fun record listed => fits record (List.mem_flatten.mpr ⟨_, member, listed⟩)
    dsimp only [onNode]
    rw [streams]
    exact Stream.from_tells node tells
  obtain ⟨merged, streams, tells, abrupt⟩ := merge_told valid usable analyzed everywhere (Stream.together_tells told)
  refine ⟨merged, streams, Stream.tells_agree tells ?_, abrupt (Stream.together_abrupt _)⟩
  have together := images_parts analyzed input parts
  have nested : ((parts.mapM fun part => (analyzed.images input part).map analyzed.merged).map List.flatten).map
      analyzed.merged = (parts.mapM fun part => (analyzed.images input part).map analyzed.merged).map
        fun rows => analyzed.merged rows.flatten := by
    cases parts.mapM fun part => (analyzed.images input part).map analyzed.merged <;> rfl
  rwa [nested]

-- The plan up to the sort keys.
theorem rows_told (analysis : query.Analysis analyzed input output) {scope : Scope} {gate : DenyList}
    {written : List LogEntry} (unbound : ctx.cluster = []) (mirrors : base.store.Mirrors written)
    (read : query.reads scope base.store = .ok (input, records)) (fits : ∀ record ∈ records, record.Fits input)
    {plan : Plan} (compiled : analyzed.compileRows scope gate = .ok plan) :
    ∃ stream, plan.stream base none ctx = .ok stream ∧
      stream.Tells ((analyzed.images input records).map analyzed.merged) ∧ stream.Abrupt := by
  rw [compileRows, analysis.source] at compiled
  rw [reads] at read
  cases source : query.source? with
  | none =>
      rw [source] at read compiled
      cases read
      have listed : (Plan.values [.empty] .empty).stream base none ctx = .ok ⟨[.empty], []⟩ := by rw [Plan.stream]
      obtain ⟨stream, streams, tells, abrupt⟩ := local_told valid usable analysis rfl compiled listed fits
      exact ⟨stream, streams, tells, abrupt (Nat.le_refl 1)⟩
  | some given =>
      rw [source] at read compiled
      obtain ⟨table, held, same⟩ := ok_of_map read
      cases same
      obtain ⟨⟨⟩, -, compiled⟩ := ok_of_bind compiled
      obtain ⟨table', held', compiled⟩ := ok_of_bind compiled
      cases held.symm.trans held'
      obtain ⟨here, compiledHere, compiled⟩ := ok_of_bind compiled
      have plans : plan = if analyzed.distinct then .distinct (.fanOut table.id here) else .fanOut table.id here :=
        (Except.ok.inj compiled).symm
      rw [plans]
      exact scattered_told valid usable analysis unbound mirrors table given.relation rfl compiledHere fits

-- The stream of the plan of a query tells what the analyzed query hands out.
theorem compile_told (analysis : query.Analysis analyzed input output) {scope : Scope} {gate : DenyList}
    {written : List LogEntry} (unbound : ctx.cluster = []) (mirrors : base.store.Mirrors written) (found : query.input scope = .ok input)
    (read : query.reads scope base.store = .ok (input, records)) (fits : ∀ record ∈ records, record.Fits input)
    {plan : Plan} (compiled : analyzed.compile scope gate = .ok plan) :
    plan.schema = output ∧ ∃ stream, plan.stream base none ctx = .ok stream ∧
      stream.Tells (analyzed.handed input output records) := by
  obtain ⟨rows, first, compiled⟩ := ok_of_bind compiled
  obtain ⟨keys, binds, compiled⟩ := ok_of_bind compiled
  have allowed : ∀ source, query.source? = some source → gate.check source.name .read = .ok () := by
    intro source given
    rw [compileRows, analysis.source, given] at first
    obtain ⟨⟨⟩, checked, -⟩ := ok_of_bind first
    exact checked
  obtain ⟨_, first', shaped, -⟩ := rows_compile analysis scope gate found allowed
  cases first.symm.trans first'
  rw [shaped] at binds
  obtain ⟨stream, streams, tells, abrupt⟩ := rows_told valid usable analysis unbound mirrors read fits first
  obtain ⟨sorted, streams', tells', abrupt'⟩ := sorted_told analysis fits binds streams tells abrupt
  have shaped' : (if keys.isEmpty then rows else .orderBy keys rows : Plan).schema = output := by
    split
    · exact shaped
    · exact shaped
  rw [handed, answer_windowed]
  cases window : analyzed.window? with
  | none =>
      rw [window] at compiled
      cases compiled
      have told := uncut_told window tells'
      rw [window] at told
      exact ⟨shaped', sorted, streams', told⟩
  | some window' =>
      rw [window] at compiled
      cases compiled
      have told := cut_told window tells' abrupt'
      rw [window] at told
      exact ⟨shaped', sorted.within window'.offset.toNat window'.limit.toNat, by rw [Plan.stream, streams']; rfl, told⟩

end Executed

end Select

end ShardQuery
