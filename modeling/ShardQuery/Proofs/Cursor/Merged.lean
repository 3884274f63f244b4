import ShardQuery.Proofs.Cursor.Answers
import ShardQuery.Proofs.Cursor.Together
/-!
Rows that are put together. Main statements: what is left of the rows of a child without duplicates, its rows in the
order of keys, and the rows of all nodes one node after the other, whatever turns their tasks take.
-/

set_option autoImplicit false

namespace ShardQuery

namespace Source

variable {σ : Type} {child : Source σ} {ctx : Context} {base engine : Engine} {s : σ} {rows : List Row}

-- The index holds the fingerprints of the rows that came before.
theorem distinct_yields (channel : Channel) (all : List Fingerprint) (seen : Sightings) (pages : List BucketPage)
    (contents : PageMedium.Contents) (members : List Fingerprint)
    (holds : HashIndex.Holds seen.index pages contents members) (among : ∀ row ∈ rows, row.fingerprint ∈ all)
    (inside : members ⊆ all) (room : ∀ fp ∈ all, (HashIndex.neighbours all fp).length ≤ seen.index.bucketCapacity)
    (yields : child.Yields ctx base rows s) :
    (distinct child channel).Yields ctx base (Row.firstBy Row.fingerprint members rows) (s, some seen) := by
  induction rows generalizing s seen pages contents members with
  | nil =>
      intro engine alike
      obtain ⟨t, later, pulled, kept⟩ := yields engine alike
      refine ⟨(t, none), later, ?_, kept⟩
      simp only [distinct, seek_done pulled]
  | cons row rows ih =>
      have known := among row List.mem_cons_self
      obtain ⟨index, fresh, learned, inserted, holds', grows⟩ :=
        HashIndex.insert_uncrowded holds all row.fingerprint known inside (room _ known)
      have inside' : (if row.fingerprint ∈ members then members else members ++ [row.fingerprint]) ⊆ all := by
        split
        · exact inside
        · exact List.append_subset.mpr ⟨inside, List.cons_subset.mpr ⟨known, List.nil_subset _⟩⟩
      have capacity : index.bucketCapacity = seen.index.bucketCapacity := by
        rw [holds'.capacity, holds.capacity, grows.pageSize]
      rw [← capacity] at room
      have rest (reported : Bool) (t : σ) (yields : child.Yields ctx base rows t) :=
        ih ⟨index, reported⟩ fresh learned _ holds' (fun other member => among other (List.mem_cons_of_mem _ member))
          inside' room yields
      rw [Row.firstBy]
      by_cases old : row.fingerprint ∈ members
      · rw [if_pos old]
        simp only [if_pos old] at rest
        refine yields_through fun engine alike => ?_
        obtain ⟨t, later, pulled, kept, others⟩ := yields engine alike
        obtain ⟨reported, after, judged, still⟩ := judge_new_alike channel inserted kept
        refine ⟨(t, some ⟨index, reported⟩), after, still, ?_, rest reported t others⟩
        rw [decide_eq_false (not_not.mpr old)] at judged
        simp only [distinct, seek_passed pulled judged]
      · rw [if_neg old]
        simp only [if_neg old] at rest
        intro engine alike
        obtain ⟨t, later, pulled, kept, others⟩ := yields engine alike
        obtain ⟨reported, after, judged, still⟩ := judge_new_alike channel inserted kept
        refine ⟨(t, some ⟨index, reported⟩), after, ?_, still, rest reported t others⟩
        rw [decide_eq_true old] at judged
        simp only [distinct, seek_taken pulled judged]

theorem distinct_answers (channel : Channel) (all : List Row) (told : Row.ToldApart base.config.pageSize all)
    (among : ∀ row ∈ rows, row ∈ all) (valid : base.config.validate = .ok ())
    (usable : base.CanSpill)
    (answers : child.Answers ctx base rows) :
    (distinct child channel).Answers ctx base (Row.firstOccurrences rows) := by
  intro engine alike
  obtain ⟨s, started, yields⟩ := answers engine alike
  obtain ⟨warnings, rfl⟩ := alike
  obtain ⟨index, pages, contents, made, holds, capacity, -⟩ := of_config_holds base.config base.directories valid usable
  refine ⟨(s, some ⟨index, false⟩), ?_, ?_⟩
  · simp only [distinct, started, made]
    rfl
  · rw [← Row.first_by_faithful rows fun a member b member' => told.faithful a (among a member) b (among b member')]
    refine distinct_yields channel (all.map Row.fingerprint).dedup ⟨index, false⟩ pages contents [] holds ?_
      (List.nil_subset _) ?_ yields
    · exact fun row member => List.mem_dedup.mpr (List.mem_map_of_mem (among row member))
    · intro fp member
      obtain ⟨row, listed, rfl⟩ := List.mem_map.mp (List.mem_dedup.mp member)
      rw [capacity]
      exact told.roomy row listed

theorem sorted_answers (keys : List SortKey) (keyed : List (List Value × Row)) (arranged : List Row)
    (live : ctx.check base.clock = .ok ())
    (evaluated : (rows.mapM fun row => do return (← SortKey.valuesOf keys none row, row)) = Except.ok keyed)
    (ordered : SortKey.sort keys keyed = .ok arranged) (answers : child.Answers ctx base rows) :
    (sorted child keys none).Answers ctx base arranged := by
  intro engine alike
  obtain ⟨s, started, yields⟩ := answers engine alike
  refine ⟨(s, none), ?_, gathered_yields _ _ _ _ s fun engine alike => ?_⟩
  · change (child.start ctx engine).map (·, none) = _
    rw [started]
    rfl
  · obtain ⟨t, later, drained, kept⟩ := drain_yields yields alike
    refine ⟨t, later, ?_, kept⟩
    obtain ⟨warnings, rfl⟩ := kept
    dsimp only
    rw [drained]
    change ((rows.mapM _ >>= fun keyed => ctx.check base.clock >>= fun _ => SortKey.sort keys keyed), _, _) = _
    rw [evaluated, live]
    exact Prod.ext ordered rfl

namespace MapStage

-- A task that has the rows of its node before it, or has some of them already, or has them all.
def OnTrack (child : Source σ) (ctx : Context) (base : Engine) (rows : List Row) : MapStage σ → Prop
  | .waiting => child.Answers ctx base rows
  | .pulling s pulled => ∃ rest, rows = pulled ++ rest ∧ child.Yields ctx base rest s
  | .ended response => response = .ok rows

theorem turn_on_track {stage : MapStage σ} (onTrack : stage.OnTrack child ctx base rows) (alike : base.Alike engine) :
    ∃ next later, stage.turn child ctx engine = (next, later) ∧ next.OnTrack child ctx base rows ∧ next.failed = false ∧
      base.Alike later := by
  cases stage with
  | waiting =>
      obtain ⟨s, started, yields⟩ := onTrack engine alike
      exact ⟨.pulling s [], engine, by rw [turn, started], ⟨rows, rfl, yields⟩, rfl, alike⟩
  | pulling s pulled =>
      obtain ⟨rest, rfl, yields⟩ := onTrack
      cases rest with
      | nil =>
          obtain ⟨t, later, done, kept⟩ := yields engine alike
          exact ⟨.ended (.ok pulled), later, by rw [turn, done]; rfl, by rw [OnTrack, List.append_nil], rfl, kept⟩
      | cons row rest =>
          obtain ⟨t, later, done, kept, others⟩ := yields engine alike
          exact ⟨.pulling t (pulled ++ [row]), later, by rw [turn, done]; rfl, ⟨rest, by simp, others⟩, rfl, kept⟩
  | ended response =>
      cases onTrack
      exact ⟨.ended (.ok rows), engine, rfl, rfl, rfl, alike⟩

theorem finish_on_track {stage : MapStage σ} (onTrack : stage.OnTrack child ctx base rows) (alike : base.Alike engine) :
    ∃ later, stage.finish child ctx engine = (.ok rows, later) ∧ base.Alike later := by
  cases stage with
  | waiting => exact collect_answers onTrack alike
  | pulling s pulled =>
      obtain ⟨rest, rfl, yields⟩ := onTrack
      obtain ⟨t, later, drained, kept⟩ := drain_yields yields alike
      refine ⟨later, ?_, kept⟩
      rw [finish, drained]
      rfl
  | ended response =>
      cases onTrack
      exact ⟨engine, rfl, alike⟩

end MapStage

namespace MapRun

-- Every task is on the way to the rows of its node, and none has failed.
structure OnTrack (child : Source σ) (base : Engine) (parts : List (List Row)) (run : MapRun σ) : Prop where
  stages : List.Forall₂ (fun (entry : Context × MapStage σ) rows => entry.2.OnTrack child entry.1 base rows) run.stages parts
  running : run.stopped = false
  alike : base.Alike run.engine

variable {parts : List (List Row)} {run : MapRun σ}

theorem turn_on_track (onTrack : run.OnTrack child base parts) (i : Nat) : (run.turn child i).OnTrack child base parts := by
  rw [turn]
  split
  · rename_i ctx stage held
    obtain ⟨rows, known, there⟩ := forall₂_at onTrack.stages i (ctx, stage) held
    rw [onTrack.running, Context.stopped_false]
    obtain ⟨next, later, turned, there', well, kept⟩ := MapStage.turn_on_track there onTrack.alike
    rw [turned]
    exact ⟨forall₂_set onTrack.stages i known there', well, kept⟩
  · exact onTrack

theorem turns_on_track (onTrack : run.OnTrack child base parts) (turns : List Nat) :
    (turns.foldl (turn child) run).OnTrack child base parts := by
  induction turns generalizing run with
  | nil => exact onTrack
  | cons i turns ih => exact ih (turn_on_track onTrack i)

theorem finish_on_track {stages : List (Context × MapStage σ)}
    (onTrack : List.Forall₂ (fun (entry : Context × MapStage σ) rows => entry.2.OnTrack child entry.1 base rows) stages parts)
    (alike : base.Alike engine) :
    ∃ later, finish child false stages engine = (parts.map .ok, later) ∧ base.Alike later := by
  induction onTrack generalizing engine with
  | nil => exact ⟨engine, rfl, alike⟩
  | @cons entry rows stages parts there _ ih =>
      obtain ⟨ctx, stage⟩ := entry
      obtain ⟨later, finished, kept⟩ := MapStage.finish_on_track there alike
      obtain ⟨last, others, still⟩ := ih kept
      refine ⟨last, ?_, still⟩
      rw [finish, Context.stopped_false, finished]
      change ((_ :: (finish child false stages later).1), (finish child false stages later).2) = _
      rw [others]
      rfl

end MapRun

theorem reduce_rows (nodes : List ClusterNode) (parts : List (List Row)) (counted : nodes.length = parts.length) :
    MapReduce.reduce (List.zipWith MapReduce.reported nodes (parts.map .ok)) = .ok parts.flatten := by
  have reported : List.zipWith MapReduce.reported nodes (parts.map .ok) = parts.map .ok := by
    induction nodes generalizing parts with
    | nil => rw [List.length_eq_zero_iff.mp counted.symm]; rfl
    | cons node nodes ih =>
        cases parts with
        | nil => cases counted
        | cons part parts => rw [List.map_cons, List.zipWith_cons_cons, ih parts (Nat.succ.inj counted)]; rfl
  have unfailed : MapReduce.firstFailure? (parts.map .ok) = none := by
    rw [MapReduce.firstFailure?, List.findSome?_eq_none_iff]
    intro response member
    obtain ⟨rows, -, rfl⟩ := List.mem_map.mp member
    rfl
  have uncancelled : (parts.map .ok).any MapReduce.wasCancelled = false := by
    rw [List.any_map, List.any_eq_false]
    intro rows _ cancelled
    cases cancelled
  rw [reported, MapReduce.reduce, unfailed]
  change (if _ then _ else _) = _
  rw [uncancelled]
  change Except.ok ((parts.map Except.ok).flatMap MapReduce.rowsOf) = _
  rw [List.flatMap_map, List.flatten_eq_flatMap]
  rfl

-- The rows of the nodes one after the other, whichever task had which turn.
theorem fan_out_answers (table : TableId) (nodes : List ClusterNode) (parts : List (List Row))
    (live : ctx.check base.clock = .ok ())
    (placed : ∀ engine, base.Alike engine → nodesFor ctx table engine = .ok nodes)
    (answers : List.Forall₂ (fun node rows => child.Answers (ctx.onNode nodes node) base rows) nodes parts) :
    (fanOut child table).Answers ctx base parts.flatten := by
  refine checked_answers live fun engine alike => ⟨((), none), rfl, gathered_yields _ _ _ _ () fun engine alike => ?_⟩
  have opening : (MapRun.opening (nodes.map (ctx.onNode nodes)) engine : MapRun σ).OnTrack child base parts := by
    refine ⟨?_, rfl, alike⟩
    change List.Forall₂ _ ((nodes.map (ctx.onNode nodes)).map (·, MapStage.waiting)) parts
    rw [List.map_map, List.forall₂_map_left_iff]
    exact answers
  have turned := MapRun.turns_on_track opening ctx.turns
  obtain ⟨later, finished, kept⟩ := MapRun.finish_on_track turned.stages turned.alike
  refine ⟨(), later, ?_, kept⟩
  have collected : child.collectAll ctx.turns (nodes.map (ctx.onNode nodes)) engine = (parts.map .ok, later) := by
    rw [collectAll, turned.running]
    exact finished
  rw [placed engine alike]
  dsimp only
  rw [collectOn, collected]
  obtain ⟨warnings, rfl⟩ := kept
  change ((ctx.check base.clock >>= fun _ => MapReduce.reduce _), _, _) = _
  rw [live]
  exact Prod.ext (reduce_rows nodes parts answers.length_eq) rfl

-- The failure of the only node, when its task has all turns.
theorem fan_out_refuses (table : TableId) (node : ClusterNode) {e : EngineError} (live : ctx.check base.clock = .ok ())
    (turnless : ctx.turns = []) (placed : ∀ engine, base.Alike engine → nodesFor ctx table engine = .ok [node])
    (heard : MapReduce.reduce [MapReduce.reported node (.error e)] = .error e)
    (refuses : child.Refuses (ctx.onNode [node] node) base e) : (fanOut child table).Refuses ctx base e := by
  intro engine alike
  obtain ⟨later, collected, kept⟩ := collect_refuses refuses alike
  refine ⟨((), none), ((), none), later, rfl, ?_, kept⟩
  have alone : child.collectOn ctx [node] engine = (.error e, later) := by
    rw [collectOn, turnless]
    change ((ctx.check (child.collect ((ctx.onNode [node] node).stopped false) engine).2.clock >>= fun _ =>
      MapReduce.reduce [MapReduce.reported node (child.collect ((ctx.onNode [node] node).stopped false) engine).1]),
      (child.collect ((ctx.onNode [node] node).stopped false) engine).2) = _
    rw [Context.stopped_false, collected]
    obtain ⟨warnings, rfl⟩ := kept
    change ((ctx.check base.clock >>= fun _ => _), _) = _
    rw [live]
    exact Prod.ext heard rfl
  obtain ⟨warnings, rfl⟩ := alike
  have running : ctx.check { base with warnings : Engine }.clock = .ok () := live
  refine (checked_running running).trans ?_
  simp only [gathered, placed _ ⟨warnings, rfl⟩, alone]

end Source

end ShardQuery
