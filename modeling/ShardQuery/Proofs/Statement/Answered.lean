import ShardQuery.Proofs.Cursor.Merged
import ShardQuery.Proofs.Statement.Projected
import ShardQuery.Proofs.Statement.Sorted
import ShardQuery.Proofs.Store.Placement
/-!
Plans of queries. Main statement: the plan of an accepted query hands out the rows that the query means, as far as their
evaluation has an outcome.
-/

set_option autoImplicit false

namespace ShardQuery

-- What the analysis makes of a query, part by part.
structure Select.Analysis (query analyzed : Select) (input output : Schema) : Prop where
  projected : ∃ expanded, query.projection.mapM (SelectItem.analyze input) = .ok expanded ∧
    analyzed.projection = expanded.flatten
  conditioned : query.condition?.mapM (analyzeCondition input) = .ok analyzed.condition?
  described : outputSchema analyzed.projection input = .ok output
  ordered : query.orderBy.mapM (analyzeOrder output) = .ok analyzed.orderBy
  distinct : analyzed.distinct = query.distinct
  source : analyzed.source? = query.source?
  window : analyzed.window? = query.window?

theorem Select.analysis_of_ok {query analyzed : Select} {scope : Scope} (accepted : query.analyze scope = .ok analyzed) :
    ∃ input output, query.input scope = .ok input ∧ query.Analysis analyzed input output := by
  obtain ⟨input, found, accepted⟩ := ok_of_bind accepted
  obtain ⟨expanded, projected, accepted⟩ := ok_of_bind accepted
  obtain ⟨condition?, conditioned, accepted⟩ := ok_of_bind accepted
  obtain ⟨output, described, accepted⟩ := ok_of_bind accepted
  obtain ⟨orderBy, ordered, accepted⟩ := ok_of_bind accepted
  cases accepted
  exact ⟨input, output, found, ⟨expanded, projected, rfl⟩, conditioned, described, ordered, rfl, rfl, rfl⟩

namespace Plan

-- A plan that hands out the rows, on whatever channels its operators warn.
def Answers (plan : Plan) (ctx : Context) (base : Engine) (rows : List Row) : Prop :=
  ∀ channels, (plan.pipeline none channels).source.Answers ctx base rows

variable {child : Plan} {ctx : Context} {base : Engine} {rows : List Row}

theorem values_answers (rows : List Row) (schema : Schema) (live : ctx.check base.clock = .ok ()) :
    (Plan.values rows schema).Answers ctx base rows :=
  fun _ => Source.guarded_answers live (Source.listing_answers _ live fun _ _ => rfl)

theorem filter_answers (predicate : PlanExpr) (keeps : Row → Bool) (live : ctx.check base.clock = .ok ())
    (judged : ∀ row ∈ rows, predicate.isTrue row none = .ok (keeps row)) (answers : child.Answers ctx base rows) :
    (Plan.filter predicate child).Answers ctx base (rows.filter keeps) :=
  fun channels => Source.guarded_answers live (Source.filter_answers predicate none keeps judged (answers channels))

theorem project_answers (exprs : List PlanExpr) (schema : Schema) (image : Row → Row) (live : ctx.check base.clock = .ok ())
    (sized : exprs.length = schema.size)
    (evaluated : ∀ row ∈ rows, exprs.mapM (PlanExpr.eval row none) = .ok (image row).values)
    (answers : child.Answers ctx base rows) : (Plan.project exprs schema child).Answers ctx base (rows.map image) :=
  fun channels => Source.guarded_answers live
    (Source.project_answers exprs schema none image sized evaluated (answers channels))

theorem limit_answers (window : Window) (live : ctx.check base.clock = .ok ()) (answers : child.Answers ctx base rows) :
    (Plan.limit window child).Answers ctx base ((rows.drop window.offset.toNat).take window.limit.toNat) :=
  fun channels => Source.guarded_answers live (Source.limit_answers window (answers channels))

end Plan

namespace Select

variable {query analyzed : Select} {input output : Schema} {ctx : Context} {base : Engine} {keep : Row → Bool}
  {image : Row → Row} {records all : List Row}

-- The duplicates that a query takes out are told apart by their fingerprints.
def ToldApart (query : Select) (base : Engine) (rows : List Row) : Prop :=
  query.distinct = true → Row.ToldApart base.config.pageSize rows ∧ base.config.validate = .ok () ∧
    base.CanSpill

-- A query may run on records and has a value on each: which of them its condition is true of, and what its projection
-- makes of these, among all that it makes of any.
structure Evaluates (query : Select) (input : Schema) (ctx : Context) (base : Engine) (keep : Row → Bool)
    (image : Row → Row) (records all : List Row) : Prop where
  live : ctx.check base.clock = .ok ()
  kept : ∀ record ∈ records, query.keeps input record = .ok (keep record)
  pictured : ∀ record ∈ records, keep record = true → query.imageIn input record = .ok (image record)
  among : ∀ record ∈ records, keep record = true → image record ∈ all
  fits : ∀ record ∈ records, record.Fits input
  told : query.ToldApart base all

theorem Evaluates.part (evaluates : query.Evaluates input ctx base keep image records all) {other : Context}
    (live : other.check base.clock = .ok ()) {part : List Row} (inside : part ⊆ records) :
    query.Evaluates input other base keep image part all where
  live := live
  kept record listed := evaluates.kept record (inside listed)
  pictured record listed := evaluates.pictured record (inside listed)
  among record listed := evaluates.among record (inside listed)
  fits record listed := evaluates.fits record (inside listed)
  told := evaluates.told

theorem Evaluates.images_among (evaluates : query.Evaluates input ctx base keep image records all) :
    ∀ row ∈ (records.filter keep).map image, row ∈ all := by
  intro row member
  obtain ⟨record, kept, rfl⟩ := List.mem_map.mp member
  obtain ⟨listed, holds⟩ := List.mem_filter.mp kept
  exact evaluates.among record listed holds

theorem images_evaluated {images : List Row} (live : ctx.check base.clock = .ok ()) (fits : ∀ record ∈ records, record.Fits input)
    (told : query.ToldApart base images) (evaluated : query.images input records = .ok images) :
    ∃ keep image, query.Evaluates input ctx base keep image records images ∧ images = (records.filter keep).map image := by
  obtain ⟨kept, filtered, evaluated⟩ := ok_of_bind evaluated
  obtain ⟨keep, judged, rfl⟩ := filter_m_ok filtered
  obtain ⟨image, pictured, rfl⟩ := map_m_ok_image evaluated
  refine ⟨keep, image, ⟨live, judged, ?_, ?_, fits, told⟩, rfl⟩
  · exact fun record listed holds => pictured record (List.mem_filter.mpr ⟨listed, holds⟩)
  · exact fun record listed holds => List.mem_map_of_mem (List.mem_filter.mpr ⟨listed, holds⟩)

theorem merged_answers {plan : Plan} {rows : List Row} (told : query.ToldApart base all) (among : ∀ row ∈ rows, row ∈ all)
    (live : ctx.check base.clock = .ok ()) (answers : plan.Answers ctx base rows) :
    (if query.distinct then Plan.distinct plan else plan).Answers ctx base (query.merged rows) := by
  rw [merged]
  split
  · rename_i distinct
    obtain ⟨apart, valid, usable⟩ := told distinct
    exact fun channels => Source.guarded_answers live
      (Source.distinct_answers _ all apart among valid usable (answers channels.tail))
  · exact answers

-- The condition of a query on the rows of a plan.
theorem condition_compiles (analysis : query.Analysis analyzed input output) (source : Plan) (own : source.schema = input) :
    ∃ plan, (match analyzed.condition? with
        | some condition => (condition.bind source.schema).map fun predicate => .filter predicate source
        | none => .ok source : Outcome Plan) = .ok plan ∧
      ∀ ctx base keep image records all, query.Evaluates input ctx base keep image records all →
        source.Answers ctx base records → plan.Answers ctx base (records.filter keep) := by
  subst own
  have conditioned := analysis.conditioned
  cases written : query.condition? with
  | none =>
      rw [written] at conditioned
      rw [← Except.ok.inj conditioned]
      refine ⟨source, rfl, fun ctx base keep image records all evaluates answers => ?_⟩
      have whole : records.filter keep = records := by
        refine List.filter_eq_self.mpr fun record listed => ?_
        have judged := evaluates.kept record listed
        rw [keeps, written] at judged
        exact (Except.ok.inj judged).symm
      rw [whole]
      exact answers
  | some condition =>
      rw [written] at conditioned
      obtain ⟨analyzedCondition, done, conditioned⟩ := ok_of_bind conditioned
      obtain ⟨bound, binds, holds⟩ := condition_holds condition analyzedCondition done
      rw [← Except.ok.inj conditioned]
      refine ⟨.filter bound source, by dsimp only; rw [binds]; rfl, fun ctx base keep image records all evaluates answers => ?_⟩
      refine Plan.filter_answers bound keep evaluates.live (fun record listed => ?_) answers
      have judged := evaluates.kept record listed
      rw [keeps, written] at judged
      obtain ⟨v, evaluated, same⟩ := ok_of_map judged
      rw [holds record (evaluates.fits record listed) v evaluated, same]

-- The plan of the part that runs where the rows are.
theorem local_compiles (analysis : query.Analysis analyzed input output) (source : Plan) (own : source.schema = input) :
    ∃ plan, analyzed.compileLocal source = .ok plan ∧ plan.schema = output ∧
      ∀ ctx base keep image records all, query.Evaluates input ctx base keep image records all →
        source.Answers ctx base records → plan.Answers ctx base (query.merged ((records.filter keep).map image)) := by
  obtain ⟨filtered, condition, passes⟩ := condition_compiles analysis source own
  obtain ⟨expanded, projected, whole⟩ := analysis.projected
  have described := whole ▸ analysis.described
  obtain ⟨exprs, binds, sized⟩ := projection_binds projected described
  refine ⟨if query.distinct then .distinct (.project exprs output filtered) else .project exprs output filtered, ?_, ?_, ?_⟩
  · rw [← whole, ← own] at binds
    refine bind_of_ok condition (bind_of_ok binds ?_)
    rw [own]
    refine bind_of_ok analysis.described ?_
    rw [analysis.distinct]
    rfl
  · split
    · rfl
    · rfl
  · intro ctx base keep image records all evaluates answers
    refine merged_answers evaluates.told evaluates.images_among evaluates.live
      (Plan.project_answers exprs output image evaluates.live sized ?_
        (passes ctx base keep image records all evaluates answers))
    intro record kept
    obtain ⟨listed, holds⟩ := List.mem_filter.mp kept
    exact (projection_evaluates (evaluates.fits record listed) projected described exprs binds (image record)
      (evaluates.pictured record listed holds)).1

theorem images_fit (analysis : query.Analysis analyzed input output)
    (evaluates : query.Evaluates input ctx base keep image records all) :
    ∀ row ∈ (records.filter keep).map image, row.Fits output := by
  intro row member
  obtain ⟨record, kept, rfl⟩ := List.mem_map.mp member
  obtain ⟨listed, holds⟩ := List.mem_filter.mp kept
  obtain ⟨expanded, projected, whole⟩ := analysis.projected
  have described := whole ▸ analysis.described
  obtain ⟨exprs, binds, -⟩ := projection_binds projected described
  exact (projection_evaluates (evaluates.fits record listed) projected described exprs binds (image record)
    (evaluates.pictured record listed holds)).2

theorem mem_merged (rows : List Row) (row : Row) (member : row ∈ query.merged rows) : row ∈ rows := by
  rw [merged] at member
  split at member
  · exact Row.mem_first_occurrences rows row member
  · exact member

-- Duplicates that are taken out on every node, and then once more.
theorem merged_parts (query : Select) (parts : List (List Row)) :
    query.merged (parts.map query.merged).flatten = query.merged parts.flatten := by
  have each : query.merged = if query.distinct then Row.firstOccurrences else id := by
    funext rows
    rw [merged]
    split
    · rfl
    · rfl
  rw [each]
  split
  · exact Row.first_occurrences_parts parts
  · rw [List.map_id, id]

-- The plan of the part that runs on every node, and of what puts the nodes together.
theorem scattered_answers (analysis : query.Analysis analyzed input output) (table : Table) (relation : String)
    (own : table.schema relation = input) :
    ∃ plan, analyzed.compileLocal (compileScan table relation) = .ok plan ∧ plan.schema = output ∧
      ∀ (ctx : Context) (base : Engine) written keep image all, ctx.cluster = [] → base.store.Mirrors written →
        query.Evaluates input ctx base keep image (base.store.tableRows table.id (table.fields.map (·.name))) all →
        (if query.distinct then Plan.distinct (.fanOut table.id plan) else .fanOut table.id plan).Answers ctx base
          (query.merged (((base.store.tableRows table.id (table.fields.map (·.name))).filter keep).map image)) := by
  obtain ⟨plan, compiled, shaped, answers⟩ := local_compiles analysis (compileScan table relation) own
  refine ⟨plan, compiled, shaped, fun ctx base written keep image all unbound mirrors evaluates => ?_⟩
  obtain ⟨nodes, parts, placed, whole, reads⟩ := Store.placement_reads (Store.mirrors_orderly mirrors) table.id
    (table.fields.map (·.name))
  rw [← whole] at evaluates ⊢
  have onNodes : List.Forall₂ (fun node rows => plan.Answers (ctx.onNode nodes node) base rows) nodes
      (parts.map fun part => query.merged ((part.filter keep).map image)) := by
    rw [List.forall₂_map_right_iff]
    refine forall₂_imp_of_mem reads ?_
    rintro node _ member ⟨shards, read, rfl⟩
    have here : (ctx.onNode nodes node).check base.clock = .ok () := evaluates.live
    refine answers (ctx.onNode nodes node) base keep image shards.flatten all (evaluates.part here ?_) ?_
    · exact fun record listed => List.mem_flatten.mpr ⟨_, member, listed⟩
    · exact fun channels => Source.guarded_answers here (Source.scan_answers here shards read)
  have everywhere : (Plan.fanOut table.id plan).Answers ctx base
      (parts.map fun part => query.merged ((part.filter keep).map image)).flatten := by
    refine fun channels => Source.guarded_answers evaluates.live
      (Source.fan_out_answers table.id nodes _ evaluates.live ?_ (onNodes.imp fun _ _ answers => answers channels))
    rintro engine ⟨warnings, rfl⟩
    rw [Source.nodesFor, unbound]
    exact placed
  have images : (parts.map fun part => (part.filter keep).map image).flatten = (parts.flatten.filter keep).map image := by
    rw [List.filter_flatten, List.map_flatten, List.map_map]
    rfl
  have listed : ∀ row ∈ (parts.map fun part => query.merged ((part.filter keep).map image)).flatten, row ∈ all := by
    intro row member
    obtain ⟨rows, merging, merged⟩ := List.mem_flatten.mp member
    obtain ⟨part, own, rfl⟩ := List.mem_map.mp merging
    have inside : part ⊆ parts.flatten := fun record listed => List.mem_flatten.mpr ⟨part, own, listed⟩
    exact (evaluates.part evaluates.live inside).images_among row (mem_merged _ row merged)
  have merges := merged_parts query (parts.map fun part => (part.filter keep).map image)
  rw [images, List.map_map] at merges
  rw [← merges]
  exact merged_answers evaluates.told listed evaluates.live everywhere

-- What a query reads: the columns and the records of its table, or one empty row where it has none.
def reads (query : Select) (scope : Scope) (store : Store) : Outcome (Schema × List Row) :=
  match query.source? with
  | some source => (scope.table source.name).map fun table =>
      (table.schema source.relation, store.tableRows table.id (table.fields.map (·.name)))
  | none => .ok (.empty, [.empty])

theorem rows_compile (analysis : query.Analysis analyzed input output) (scope : Scope) (gate : DenyList)
    (found : query.input scope = .ok input)
    (allowed : ∀ source, query.source? = some source → gate.check source.name .read = .ok ()) :
    ∃ plan, analyzed.compileRows scope gate = .ok plan ∧ plan.schema = output ∧
      ∀ (ctx : Context) (base : Engine) written keep image records all, ctx.cluster = [] →
        base.store.Mirrors written → query.reads scope base.store = .ok (input, records) →
        query.Evaluates input ctx base keep image records all →
        plan.Answers ctx base (query.merged ((records.filter keep).map image)) := by
  rw [compileRows, analysis.source]
  rw [Select.input] at found
  cases written : query.source? with
  | none =>
      rw [written] at found
      cases found
      obtain ⟨plan, compiled, shaped, answers⟩ := local_compiles analysis (.values [.empty] .empty) rfl
      refine ⟨plan, compiled, shaped, fun ctx base _ keep image records all _ _ read evaluates => ?_⟩
      rw [reads, written] at read
      cases read
      exact answers ctx base keep image _ all evaluates (Plan.values_answers _ _ evaluates.live)
  | some source =>
      rw [written] at found
      obtain ⟨table, held, own⟩ := ok_of_map found
      obtain ⟨plan, compiled, shaped, answers⟩ := scattered_answers analysis table source.relation own
      refine ⟨if query.distinct then .distinct (.fanOut table.id plan) else .fanOut table.id plan, ?_, ?_, ?_⟩
      · refine bind_of_ok (allowed source written) (bind_of_ok held (bind_of_ok compiled ?_))
        rw [analysis.distinct]
        rfl
      · split
        · exact shaped
        · exact shaped
      · intro ctx base known keep image records all unbound mirrors read evaluates
        rw [reads, written] at read
        dsimp only at read
        rw [held] at read
        cases read
        exact answers ctx base known keep image all unbound mirrors evaluates

-- The plan of an accepted query hands out the rows that the query means.
theorem compile_answers (analysis : query.Analysis analyzed input output) (scope : Scope) (gate : DenyList)
    (found : query.input scope = .ok input)
    (allowed : ∀ source, query.source? = some source → gate.check source.name .read = .ok ()) :
    ∃ plan, analyzed.compile scope gate = .ok plan ∧ plan.schema = output ∧
      ∀ (ctx : Context) (base : Engine) written records rows, ctx.check base.clock = .ok () → ctx.cluster = [] →
        base.store.Mirrors written → query.reads scope base.store = .ok (input, records) →
        (∀ record ∈ records, record.Fits input) →
        (∀ images, query.images input records = .ok images → query.ToldApart base images) →
        query.answer input output records = .ok rows → plan.Answers ctx base rows := by
  obtain ⟨plan, compiled, shaped, answers⟩ := rows_compile analysis scope gate found allowed
  obtain ⟨keys, binds, bound⟩ := keys_bind analysis.ordered
  have counted := bound.length_eq
  refine ⟨query.window?.elim (if keys.isEmpty then plan else .orderBy keys plan)
    (.limit · (if keys.isEmpty then plan else .orderBy keys plan)), ?_, ?_, ?_⟩
  · rw [← shaped] at binds
    refine bind_of_ok compiled (bind_of_ok binds ?_)
    rw [analysis.window]
    cases query.window? with
    | none => rfl
    | some window => rfl
  · cases query.window? with
    | none =>
        rw [Option.elim]
        split <;> exact shaped
    | some window =>
        rw [Option.elim, Plan.schema]
        split <;> exact shaped
  · intro ctx base written records rows live unbound mirrors read fits told meant
    obtain ⟨images, evaluated, meant⟩ := ok_of_bind meant
    obtain ⟨sorted, ordered, meant⟩ := ok_of_bind meant
    cases meant
    obtain ⟨keep, image, evaluates, rfl⟩ := images_evaluated live fits (told images evaluated) evaluated
    have merging := answers ctx base written keep image records _ unbound mirrors read evaluates
    have sorting : (if keys.isEmpty then plan else .orderBy keys plan : Plan).Answers ctx base sorted := by
      split
      · rename_i none
        have unordered : query.orderBy = [] := by
          rw [List.isEmpty_iff.mp none] at counted
          exact List.length_eq_zero_iff.mp counted
        rw [sorted_unordered unordered ordered]
        exact merging
      · have fitting : ∀ row ∈ query.merged ((records.filter keep).map image), row.Fits output :=
          fun row member => images_fit analysis evaluates row (mem_merged _ row member)
        obtain ⟨keyed, valued, arranged⟩ := sort_sorted fitting bound ordered
        exact fun channels => Source.guarded_answers live
          (Source.sorted_answers keys keyed sorted live valued arranged (merging channels))
    rw [windowed]
    cases query.window? with
    | none => exact sorting
    | some window => exact Plan.limit_answers window live sorting

end Select

end ShardQuery
