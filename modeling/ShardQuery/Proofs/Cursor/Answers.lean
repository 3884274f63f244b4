import ShardQuery.Proofs.Cursor.Drain
import ShardQuery.Proofs.Cursor.Reading
import ShardQuery.Proofs.Cursor.Streams
import ShardQuery.Proofs.Outcome
/-!
What sources answer. Main statements: the rows that scans, listings, filters, projections and windows hand out, as long
as nothing but the warnings of the engine changes.
-/

set_option autoImplicit false

namespace ShardQuery.Source

variable {σ τ : Type} {source child : Source σ} {ctx : Context} {base engine : Engine} {s : σ} {rows : List Row}

-- Hands out the rows one by one and then comes to its end, whatever warnings there are in between.
def Yields (source : Source σ) (ctx : Context) (base : Engine) : List Row → σ → Prop
  | [], s => ∀ engine, base.Alike engine →
      ∃ t later, source.pull ctx s engine = ⟨.done, t, later⟩ ∧ base.Alike later
  | row :: rows, s => ∀ engine, base.Alike engine →
      ∃ t later, source.pull ctx s engine = ⟨.row row, t, later⟩ ∧ base.Alike later ∧ Yields source ctx base rows t

-- Starts and then hands out the rows.
def Answers (source : Source σ) (ctx : Context) (base : Engine) (rows : List Row) : Prop :=
  ∀ engine, base.Alike engine → ∃ s, source.start ctx engine = .ok s ∧ source.Yields ctx base rows s

theorem drain_yields (yields : source.Yields ctx base rows s) (alike : base.Alike engine) :
    ∃ t later, source.drain ctx s engine = ⟨.ok rows, t, later⟩ ∧ base.Alike later := by
  induction rows generalizing s engine with
  | nil =>
      obtain ⟨t, later, pulled, kept⟩ := yields engine alike
      exact ⟨source.close t, later, drain_done pulled, kept⟩
  | cons row rows ih =>
      obtain ⟨t, later, pulled, kept, rest⟩ := yields engine alike
      obtain ⟨last, after, drained, still⟩ := ih rest kept
      refine ⟨last, after, ?_, still⟩
      rw [drain_row pulled, drained]
      rfl

theorem collect_answers (answers : source.Answers ctx base rows) (alike : base.Alike engine) :
    ∃ later, source.collect ctx engine = (.ok rows, later) ∧ base.Alike later := by
  obtain ⟨s, started, yields⟩ := answers engine alike
  obtain ⟨t, later, drained, kept⟩ := drain_yields yields alike
  refine ⟨later, ?_, kept⟩
  rw [collect, started]
  simp only [drained]

-- A state yields what the next pull makes of it.
theorem yields_through (first : ∀ engine, base.Alike engine → ∃ t later, base.Alike later ∧
    source.pull ctx s engine = source.pull ctx t later ∧ source.Yields ctx base rows t) :
    source.Yields ctx base rows s := by
  cases rows with
  | nil =>
      intro engine alike
      obtain ⟨t, later, kept, same, yields⟩ := first engine alike
      rw [same]
      exact yields later kept
  | cons row rows =>
      intro engine alike
      obtain ⟨t, later, kept, same, yields⟩ := first engine alike
      rw [same]
      exact yields later kept

-- Pulls that hand out the rows, also of another source.
theorem yields_transfer {other : Source τ} (link : σ → τ → Prop)
    (same : ∀ s t engine, link s t → base.Alike engine → ∃ u,
      other.pull ctx t engine = ⟨(source.pull ctx s engine).answer, u, (source.pull ctx s engine).engine⟩ ∧
        link (source.pull ctx s engine).state u)
    (t : τ) (yields : source.Yields ctx base rows s) (linked : link s t) : other.Yields ctx base rows t := by
  induction rows generalizing s t with
  | nil =>
      intro engine alike
      obtain ⟨next, later, pulled, kept⟩ := yields engine alike
      obtain ⟨u, pulled', -⟩ := same s t engine linked alike
      rw [pulled] at pulled'
      exact ⟨u, later, pulled', kept⟩
  | cons row rows ih =>
      intro engine alike
      obtain ⟨next, later, pulled, kept, rest⟩ := yields engine alike
      obtain ⟨u, pulled', linked'⟩ := same s t engine linked alike
      rw [pulled] at pulled' linked'
      exact ⟨u, later, pulled', kept, ih u rest linked'⟩

theorem guarded_yields (yields : child.Yields ctx base rows s) : child.guarded.Yields ctx base rows s :=
  yields_transfer Eq (fun _ _ _ linked _ => ⟨_, linked ▸ rfl, rfl⟩) s yields rfl

theorem guarded_answers (live : ctx.check base.clock = .ok ()) (answers : child.Answers ctx base rows) :
    child.guarded.Answers ctx base rows := by
  rintro engine ⟨warnings, rfl⟩
  obtain ⟨s, started, yields⟩ := answers { base with warnings } ⟨warnings, rfl⟩
  refine ⟨s, ?_, guarded_yields yields⟩
  change (ctx.check base.clock >>= fun _ => child.start ctx { base with warnings }) = _
  rw [live]
  exact started

theorem checked_yields (live : ctx.check base.clock = .ok ()) (yields : child.Yields ctx base rows s) :
    child.checked.Yields ctx base rows s := by
  refine yields_transfer Eq (fun s t engine linked alike => ⟨(child.pull ctx s engine).state, ?_, rfl⟩) s yields rfl
  obtain ⟨warnings, rfl⟩ := alike
  subst linked
  exact checked_running live

theorem checked_answers (live : ctx.check base.clock = .ok ()) (answers : child.Answers ctx base rows) :
    child.checked.Answers ctx base rows := by
  intro engine alike
  obtain ⟨s, started, yields⟩ := answers engine alike
  exact ⟨s, started, checked_yields live yields⟩

-- Rows that are gathered at the first pull.
theorem gathered_yields (start : Context → Engine → Outcome τ) (gather : Context → τ → Engine → Gathering τ)
    (close : τ → τ) (spillFiles : τ → Nat) (t : τ)
    (gathers : ∀ engine, base.Alike engine → ∃ left later, gather ctx t engine = (.ok rows, left, later) ∧
      base.Alike later) : (gathered start gather close spillFiles).Yields ctx base rows (t, none) := by
  have stocked (rows : List Row) (left : τ) :
      (gathered start gather close spillFiles).Yields ctx base rows (left, some rows) := by
    induction rows with
    | nil => exact fun engine alike => ⟨_, engine, rfl, alike⟩
    | cons row rows ih => exact fun engine alike => ⟨_, engine, rfl, alike, ih⟩
  have first (engine : Engine) (alike : base.Alike engine) : ∃ left later, base.Alike later ∧
      (gathered start gather close spillFiles).pull ctx (t, none) engine =
        ⟨(Stock.take rows).1, (left, some (Stock.take rows).2), later⟩ := by
    obtain ⟨left, later, gathered', kept⟩ := gathers engine alike
    refine ⟨left, later, kept, ?_⟩
    simp only [gathered, gathered']
  cases rows with
  | nil =>
      intro engine alike
      obtain ⟨left, later, kept, pulled⟩ := first engine alike
      exact ⟨_, later, pulled, kept⟩
  | cons row rows =>
      intro engine alike
      obtain ⟨left, later, kept, pulled⟩ := first engine alike
      exact ⟨_, later, pulled, kept, stocked rows left⟩

theorem listing_answers (listed : Context → Engine → Outcome (List Row)) (live : ctx.check base.clock = .ok ())
    (asked : ∀ engine, base.Alike engine → listed ctx engine = .ok rows) : (listing listed).Answers ctx base rows := by
  refine checked_answers live fun engine alike => ⟨((), none), rfl, ?_⟩
  refine gathered_yields _ _ _ _ () fun engine alike => ⟨(), engine, ?_, alike⟩
  rw [asked engine alike]

section Scan

variable {table : TableId} {fields : List String} {node? : Option NodeId}

-- Reading on finds the next of the rows, and what is left of them.
theorem read_on_rows (store : Store) (pending : List ShardId) (shards : List (List Row))
    (read : pending.mapM (store.readShard node? table · fields) = .ok shards) :
    match shards.flatten with
    | [] => ∃ scan, Scan.readOn store node? table fields pending = (.done, scan)
    | row :: rest => ∃ left buffer others, Scan.readOn store node? table fields pending = (.row row, ⟨node?, left, buffer⟩) ∧
        left.mapM (store.readShard node? table · fields) = .ok others ∧ rest = buffer ++ others.flatten := by
  induction pending generalizing shards with
  | nil =>
      cases read
      exact ⟨_, rfl⟩
  | cons shard pending ih =>
      rw [List.mapM_cons] at read
      obtain ⟨first, held, read⟩ := ok_of_bind read
      obtain ⟨others, later, read⟩ := ok_of_bind read
      cases read
      rw [Scan.readOn, held]
      cases first with
      | nil => exact ih others later
      | cons row buffer => exact ⟨pending, buffer, others, rfl, later, rfl⟩

theorem scan_yields (live : ctx.check base.clock = .ok ()) (buffer : List Row) (pending : List ShardId)
    (shards : List (List Row)) (read : pending.mapM (base.store.readShard node? table · fields) = .ok shards) :
    (scan table fields).Yields ctx base (buffer ++ shards.flatten) ⟨node?, pending, buffer⟩ := by
  have pulled (s : Scan) (engine : Engine) (alike : base.Alike engine) : (scan table fields).pull ctx s engine =
      ⟨(s.next base.store table fields).1, (s.next base.store table fields).2, engine⟩ := by
    obtain ⟨warnings, rfl⟩ := alike
    exact checked_running live
  generalize whole : buffer ++ shards.flatten = rows
  induction rows generalizing buffer pending shards with
  | nil =>
      obtain ⟨rfl, empty⟩ := List.append_eq_nil_iff.mp whole
      have ends := read_on_rows base.store pending shards read
      rw [empty] at ends
      obtain ⟨scan, ended⟩ := ends
      intro engine alike
      refine ⟨scan, engine, ?_, alike⟩
      rw [pulled _ engine alike, Scan.next, ended]
  | cons row rows ih =>
      intro engine alike
      rw [pulled _ engine alike]
      cases buffer with
      | cons first buffer =>
          cases whole
          exact ⟨⟨node?, pending, buffer⟩, engine, rfl, alike, ih buffer pending shards read rfl⟩
      | nil =>
          have finds := read_on_rows base.store pending shards read
          rw [show shards.flatten = row :: rows from whole] at finds
          obtain ⟨left, buffer, others, found, later, rfl⟩ := finds
          rw [Scan.next, found]
          exact ⟨_, engine, rfl, alike, ih buffer left others later rfl⟩

theorem scan_answers (live : ctx.check base.clock = .ok ()) (shards : List (List Row))
    (read : (scanShards ctx base.store table).mapM (base.store.readShard (ctx.node?.map (·.id)) table · fields) =
      .ok shards) : (scan table fields).Answers ctx base shards.flatten := by
  rintro engine ⟨warnings, rfl⟩
  exact ⟨⟨ctx.node?.map (·.id), scanShards ctx base.store table, []⟩, scan_start table fields ctx _,
    scan_yields live [] _ shards read⟩

theorem collect_scan (engine : Engine) (live : ctx.check engine.clock = .ok ()) (shards : List (List Row))
    (read : (scanShards ctx engine.store table).mapM (engine.store.readShard (ctx.node?.map (·.id)) table · fields) =
      .ok shards) : ((scan table fields).guarded.collect ctx engine).1 = .ok shards.flatten := by
  obtain ⟨later, collected, -⟩ :=
    collect_answers (guarded_answers live (scan_answers live shards read)) (Engine.alike_refl engine)
  rw [collected]

end Scan

theorem filter_yields (predicate : PlanExpr) (seed : Option Row) (keeps : Row → Bool)
    (judged : ∀ row ∈ rows, predicate.isTrue row seed = .ok (keeps row)) (yields : child.Yields ctx base rows s) :
    (filter child predicate seed).Yields ctx base (rows.filter keeps) s := by
  induction rows generalizing s with
  | nil =>
      intro engine alike
      obtain ⟨t, later, pulled, kept⟩ := yields engine alike
      refine ⟨t, later, ?_, kept⟩
      simp only [filter, pullFilter, seek_done pulled, Pulled.map]
  | cons row rows ih =>
      have judgedRow := judged row List.mem_cons_self
      have rest (t : σ) (yields : child.Yields ctx base rows t) :=
        ih (fun other among => judged other (List.mem_cons_of_mem _ among)) yields
      cases keep : keeps row with
      | true =>
          rw [List.filter_cons_of_pos keep]
          intro engine alike
          obtain ⟨t, later, pulled, kept, others⟩ := yields engine alike
          refine ⟨t, later, ?_, kept, rest t others⟩
          rw [keep] at judgedRow
          have taken : child.pullFilter predicate seed ctx s engine = ⟨.row row, (t, ()), later⟩ :=
            seek_taken pulled (by rw [judgedRow])
          simp only [filter, taken, Pulled.map]
      | false =>
          rw [List.filter_cons_of_neg (Bool.eq_false_iff.mp keep)]
          refine yields_through fun engine alike => ?_
          obtain ⟨t, later, pulled, kept, others⟩ := yields engine alike
          refine ⟨t, later, kept, ?_, rest t others⟩
          rw [keep] at judgedRow
          have passed : child.pullFilter predicate seed ctx s engine = child.pullFilter predicate seed ctx t later :=
            seek_passed pulled (by rw [judgedRow])
          simp only [filter, passed]

theorem filter_answers (predicate : PlanExpr) (seed : Option Row) (keeps : Row → Bool)
    (judged : ∀ row ∈ rows, predicate.isTrue row seed = .ok (keeps row)) (answers : child.Answers ctx base rows) :
    (filter child predicate seed).Answers ctx base (rows.filter keeps) := by
  intro engine alike
  obtain ⟨s, started, yields⟩ := answers engine alike
  exact ⟨s, started, filter_yields predicate seed keeps judged yields⟩

theorem project_yields (exprs : List PlanExpr) (schema : Schema) (seed : Option Row) (image : Row → Row)
    (evaluated : ∀ row ∈ rows, exprs.mapM (PlanExpr.eval row seed) = .ok (image row).values)
    (yields : child.Yields ctx base rows s) :
    (project child exprs schema seed).Yields ctx base (rows.map image) s := by
  induction rows generalizing s with
  | nil =>
      intro engine alike
      obtain ⟨t, later, pulled, kept⟩ := yields engine alike
      refine ⟨t, later, ?_, kept⟩
      simp only [project, pulled]
  | cons row rows ih =>
      intro engine alike
      obtain ⟨t, later, pulled, kept, rest⟩ := yields engine alike
      refine ⟨t, later, ?_, kept, ih (fun other among => evaluated other (List.mem_cons_of_mem _ among)) rest⟩
      simp only [project, pulled, evaluated row List.mem_cons_self]

theorem project_answers (exprs : List PlanExpr) (schema : Schema) (seed : Option Row) (image : Row → Row)
    (sized : exprs.length = schema.size)
    (evaluated : ∀ row ∈ rows, exprs.mapM (PlanExpr.eval row seed) = .ok (image row).values)
    (answers : child.Answers ctx base rows) :
    (project child exprs schema seed).Answers ctx base (rows.map image) := by
  intro engine alike
  obtain ⟨s, started, yields⟩ := answers engine alike
  refine ⟨s, ?_, project_yields exprs schema seed image evaluated yields⟩
  simp only [project, sized, if_true, started]

theorem advance_yields (remaining skip : Nat) (yields : child.Yields ctx base rows s) (alike : base.Alike engine) :
    match rows.drop skip with
    | [] => ∃ t later, Limited.advance child ctx remaining skip s engine = ⟨.done, t, later⟩ ∧ base.Alike later
    | row :: rest => ∃ t later, Limited.advance child ctx remaining skip s engine =
        ⟨.row row, ⟨t, 0, remaining - 1, false⟩, later⟩ ∧ base.Alike later ∧ child.Yields ctx base rest t := by
  induction rows generalizing s skip engine with
  | nil =>
      obtain ⟨t, later, pulled, kept⟩ := yields engine alike
      rw [List.drop_nil]
      cases skip with
      | zero => exact ⟨_, later, by rw [Limited.advance, pulled], kept⟩
      | succ skip => exact ⟨_, later, by rw [Limited.advance, pulled], kept⟩
  | cons row rows ih =>
      obtain ⟨t, later, pulled, kept, rest⟩ := yields engine alike
      cases skip with
      | zero => exact ⟨t, later, by rw [Limited.advance, pulled], kept, rest⟩
      | succ skip =>
          rw [List.drop_succ_cons, Limited.advance, pulled]
          exact ih skip rest kept

-- A window of the rows, whether or not the child comes to its end within it.
theorem limit_yields (window : Window) (skip remaining : Nat) (yields : child.Yields ctx base rows s) :
    (limit child window).Yields ctx base ((rows.drop skip).take remaining) ⟨s, skip, remaining, false⟩ := by
  induction remaining generalizing s skip rows with
  | zero => exact fun engine alike => ⟨_, engine, rfl, alike⟩
  | succ remaining ih =>
      have pulled (engine : Engine) : (limit child window).pull ctx ⟨s, skip, remaining + 1, false⟩ engine =
        Limited.advance child ctx (remaining + 1) skip s engine := rfl
      have advances (engine : Engine) (alike : base.Alike engine) := advance_yields (remaining + 1) skip yields alike
      cases left : rows.drop skip with
      | nil =>
          rw [left] at advances
          exact fun engine alike => advances engine alike
      | cons row rest =>
          rw [left] at advances
          intro engine alike
          obtain ⟨t, later, advanced, kept, others⟩ := advances engine alike
          exact ⟨_, later, advanced, kept, ih 0 others⟩

theorem limit_answers (window : Window) (answers : child.Answers ctx base rows) :
    (limit child window).Answers ctx base ((rows.drop window.offset.toNat).take window.limit.toNat) := by
  intro engine alike
  obtain ⟨s, started, yields⟩ := answers engine alike
  refine ⟨⟨s, window.offset.toNat, window.limit.toNat, false⟩, ?_, limit_yields window _ _ yields⟩
  simp only [limit, started]
  rfl

section Refusals

variable {e : EngineError}

-- Starts, and fails at the first pull.
def Refuses (source : Source σ) (ctx : Context) (base : Engine) (e : EngineError) : Prop :=
  ∀ engine, base.Alike engine → ∃ s t later, source.start ctx engine = .ok s ∧
    source.pull ctx s engine = ⟨.failed e, t, later⟩ ∧ base.Alike later

theorem collect_refuses (refuses : source.Refuses ctx base e) (alike : base.Alike engine) :
    ∃ later, source.collect ctx engine = (.error e, later) ∧ base.Alike later := by
  obtain ⟨s, t, later, started, pulled, kept⟩ := refuses engine alike
  refine ⟨later, ?_, kept⟩
  rw [collect, started]
  simp only [drain_failed pulled]

theorem guarded_refuses (live : ctx.check base.clock = .ok ()) (refuses : child.Refuses ctx base e) :
    child.guarded.Refuses ctx base e := by
  rintro engine ⟨warnings, rfl⟩
  obtain ⟨s, t, later, started, pulled, kept⟩ := refuses { base with warnings } ⟨warnings, rfl⟩
  refine ⟨s, t, later, ?_, pulled, kept⟩
  change (ctx.check base.clock >>= fun _ => child.start ctx { base with warnings }) = _
  rw [live]
  exact started

theorem filter_refuses (predicate : PlanExpr) (seed : Option Row) (row : Row) (answers : child.Answers ctx base (row :: rows))
    (judged : predicate.isTrue row seed = .error e) : (filter child predicate seed).Refuses ctx base e := by
  intro engine alike
  obtain ⟨s, started, yields⟩ := answers engine alike
  obtain ⟨t, later, pulled, kept, -⟩ := yields engine alike
  refine ⟨s, t, later, started, ?_, kept⟩
  have sought : child.pullFilter predicate seed ctx s engine = ⟨.failed e, (t, ()), later⟩ := by
    rw [pullFilter, seek_eq, pulled]
    simp only [judged]
  simp only [filter, sought, Pulled.map]

theorem project_refuses (exprs : List PlanExpr) (schema : Schema) (seed : Option Row) (sized : exprs.length = schema.size)
    (refuses : child.Refuses ctx base e) : (project child exprs schema seed).Refuses ctx base e := by
  intro engine alike
  obtain ⟨s, t, later, started, pulled, kept⟩ := refuses engine alike
  refine ⟨s, t, later, ?_, ?_, kept⟩
  · simp only [project, sized, if_true, started]
  · simp only [project, pulled]

end Refusals

end ShardQuery.Source
