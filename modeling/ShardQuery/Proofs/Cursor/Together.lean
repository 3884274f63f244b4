import ShardQuery.Proofs.Cursor.Distinct
import ShardQuery.Proofs.Cursor.Plays
import ShardQuery.Proofs.Outcome
/-!
Streams without duplicates, and the streams of several nodes together. Main statements: what is left of the stream of
a child when rows seen before are left out, and what the map tasks of all nodes come to, whatever turns they take and
whoever of them is stopped by the failure of another.
-/

set_option autoImplicit false

namespace ShardQuery

-- Rows that an index of fingerprints tells apart: equal fingerprints mean equal rows, and those that share their low
-- bits fit into one bucket.
structure Row.ToldApart (pageSize : Nat) (rows : List Row) : Prop where
  faithful : ∀ a ∈ rows, ∀ b ∈ rows, a.fingerprint = b.fingerprint → (a == b) = true
  roomy : ∀ row ∈ rows, (HashIndex.neighbours (rows.map Row.fingerprint).dedup row.fingerprint).length ≤
    BucketPage.capacity pageSize

namespace Stream

-- What an index of fingerprints lets through: the rows that it had not seen before, up to the first that it refuses.
def sift (errors : List EngineError) : HashIndex PageStore → List Row → Stream
  | _, [] => ⟨[], errors⟩
  | index, row :: rows =>
      match (HashIndex.insert row.fingerprint).perform index with
      | (.ok true, later) => (sift errors later rows).cons row
      | (.ok false, later) => sift errors later rows
      | (.error e, _) => failing e

def sifted (stream : Stream) (index : HashIndex PageStore) : Stream := sift stream.errors index stream.rows

end Stream

namespace Source

variable {σ : Type} {child : Source σ} {setting : Setting} {ctx : Context} {base engine : Engine} {s : σ}
  {errors : List EngineError} {rows : List Row}

theorem judge_new_alike {row : Row} {seen : Sightings} {fresh : Bool} {index : HashIndex PageStore} (channel : Channel)
    (inserted : (HashIndex.insert row.fingerprint).perform seen.index = (.ok fresh, index)) (alike : base.Alike engine) :
    ∃ reported later, judgeNew channel row seen engine = ⟨.ok fresh, ⟨index, reported⟩, later⟩ ∧ base.Alike later := by
  rw [judge_new inserted]
  split
  · exact ⟨true, _, rfl, Engine.alike_trans alike (Engine.warn_alike engine channel _)⟩
  · exact ⟨seen.reported, engine, rfl, alike⟩

theorem judge_new_refused {row : Row} {seen : Sightings} {e : EngineError} {index : HashIndex PageStore} (channel : Channel)
    (refused : (HashIndex.insert row.fingerprint).perform seen.index = (.error e, index)) (engine : Engine) :
    judgeNew channel row seen engine = ⟨.error e, { seen with index }, engine⟩ := by
  rw [Row.fingerprint] at refused
  rw [judgeNew, refused]

theorem sift_hands (channel : Channel) (seen : Sightings) (plays : child.Plays setting errors rows s)
    (admits : setting.Admits ctx engine) :
    let fresh := Stream.sift errors seen.index rows
    Hands setting.base ctx (fun t => ∃ rest learned, t.2 = some learned ∧ child.Plays setting errors rest t.1 ∧
        Stream.sift errors learned.index rest = ⟨fresh.rows.tail, fresh.errors⟩)
      fresh ((distinct child channel).pull ctx (s, some seen) engine) := by
  induction rows generalizing s seen engine with
  | nil =>
      have hands := plays.hands admits
      generalize pulled : child.pull ctx s engine = answer at hands
      cases hands with
      | done kept =>
          simp only [distinct, seek_done pulled]
          exact .done kept
      | failed kept among =>
          simp only [distinct, seek_failed pulled]
          exact .failed kept among
      | cancelled kept stopped =>
          simp only [distinct, seek_failed pulled]
          exact .cancelled kept stopped
  | cons row rows ih =>
      have hands := plays.hands admits
      generalize pulled : child.pull ctx s engine = answer at hands
      cases hands with
      | cancelled kept stopped =>
          simp only [distinct, seek_failed pulled]
          exact .cancelled kept stopped
      | @row _ _ _ t later kept rest =>
          rw [Stream.sift]
          split
          · rename_i index inserted
            obtain ⟨reported, after, judged, still⟩ := judge_new_alike channel inserted kept
            simp only [distinct, seek_taken pulled judged]
            exact .row still ⟨rows, ⟨index, reported⟩, rfl, rest, rfl⟩
          · rename_i index inserted
            obtain ⟨reported, after, judged, still⟩ := judge_new_alike channel inserted kept
            have passed : (distinct child channel).pull ctx (s, some seen) engine =
                (distinct child channel).pull ctx (t, some ⟨index, reported⟩) after := by
              simp only [distinct, seek_passed pulled judged]
            rw [passed]
            exact ih ⟨index, reported⟩ rest (admits.on still)
          · rename_i e index inserted
            have judged := judge_new_refused channel inserted later
            have sought : child.seek (judgeNew channel) ctx s seen engine = ⟨.failed e, (t, { seen with index }), later⟩ := by
              rw [seek_eq, pulled]
              simp only [judged]
            simp only [distinct, sought]
            exact .failed kept List.mem_cons_self

-- Whatever the rows are, the index decides which of them are handed out.
theorem distinct_sifts {meaning : Outcome Stream} (channel : Channel) (streams : child.Streams setting meaning) :
    (distinct child channel).Streams setting (do
      let stream ← meaning
      let index ← HashIndex.ofConfig setting.base.config setting.base.directories
      return stream.sifted index) := by
  intro ctx engine admits
  have begins := streams ctx engine admits
  obtain ⟨warnings, rfl⟩ := admits.alike
  change (distinct child channel).Begins setting ctx _ (child.start ctx { setting.base with warnings } >>= fun s =>
    HashIndex.ofConfig setting.base.config setting.base.directories >>= fun index => .ok (s, some ⟨index, false⟩))
  generalize child.start ctx { setting.base with warnings } = outcome at begins
  cases begins with
  | refused e => exact .refused e
  | cancelled stopped => exact .cancelled stopped
  | @begun stream s plays =>
      cases made : HashIndex.ofConfig setting.base.config setting.base.directories with
      | error e => exact .refused e
      | ok index =>
          have sifting : (distinct child channel).Plays setting (stream.sifted index).errors (stream.sifted index).rows
              (s, some ⟨index, false⟩) := by
            refine plays_of_hands (fun t kept => ∃ rest learned, t.2 = some learned ∧
              child.Plays setting stream.errors rest t.1 ∧ Stream.sift stream.errors learned.index rest = kept) ?_
              ⟨stream.rows, ⟨index, false⟩, rfl, plays, rfl⟩
            rintro ⟨t, _⟩ _ ctx engine ⟨rest, learned, rfl, plays, rfl⟩ admits
            exact sift_hands channel learned plays admits
          exact .begun sifting

-- With room for all rows that share their low bits, the index lets the first occurrences through.
theorem sift_uncrowded {index : HashIndex PageStore} {pages : List BucketPage} {contents : PageMedium.Contents}
    {members : List Fingerprint} (holds : HashIndex.Holds index pages contents members) (all : List Fingerprint)
    (among : ∀ row ∈ rows, row.fingerprint ∈ all) (inside : members ⊆ all)
    (room : ∀ fp ∈ all, (HashIndex.neighbours all fp).length ≤ index.bucketCapacity) :
    Stream.sift errors index rows = ⟨Row.firstBy Row.fingerprint members rows, errors⟩ := by
  induction rows generalizing index pages contents members with
  | nil => rfl
  | cons row rows ih =>
      have known := among row List.mem_cons_self
      obtain ⟨later, fresh, learned, inserted, holds', grows⟩ :=
        HashIndex.insert_uncrowded holds all row.fingerprint known inside (room _ known)
      have capacity : later.bucketCapacity = index.bucketCapacity := by
        rw [holds'.capacity, holds.capacity, grows.pageSize]
      have rest {members : List Fingerprint} (holds : HashIndex.Holds later fresh learned members) (inside : members ⊆ all) :=
        ih holds (fun other member => among other (List.mem_cons_of_mem _ member)) inside (capacity ▸ room)
      rw [Stream.sift, Row.firstBy, inserted]
      by_cases old : row.fingerprint ∈ members
      · rw [if_pos old] at holds' ⊢
        rw [decide_eq_false (not_not.mpr old)]
        exact rest holds' inside
      · rw [if_neg old] at holds' ⊢
        rw [decide_eq_true old]
        exact congrArg (Stream.cons row)
          (rest holds' (List.append_subset.mpr ⟨inside, List.cons_subset.mpr ⟨known, List.nil_subset _⟩⟩))

-- Whatever the rows are, only rows that came in are handed out, and only depth can keep the index from going on.
theorem sift_among {index : HashIndex PageStore} {pages : List BucketPage} {contents : PageMedium.Contents}
    {members : List Fingerprint} (holds : HashIndex.Holds index pages contents members) :
    (Stream.sift errors index rows).rows ⊆ rows ∧
      ∀ e ∈ (Stream.sift errors index rows).errors, e ∈ errors ∨ e = HashIndex.tooDeep := by
  induction rows generalizing index pages contents members with
  | nil => exact ⟨List.Subset.refl _, fun e among => .inl among⟩
  | cons row rows ih =>
      obtain ⟨outcome, later, fresh, learned, after, inserted, holds', -, ends⟩ := HashIndex.insert_ends holds row.fingerprint
      obtain ⟨inside, failing⟩ := ih holds'
      rw [Stream.sift, inserted]
      cases ends with
      | held => exact ⟨List.subset_cons_of_subset _ inside, failing⟩
      | joined => exact ⟨List.cons_subset_cons row inside, failing⟩
      | refused => exact ⟨List.nil_subset _, fun e among => .inr (List.mem_singleton.mp among)⟩

theorem of_config_made (config : Config) (directories : Directories) (index : HashIndex PageStore)
    (made : HashIndex.ofConfig config directories = .ok index)
    (usable : config.spillToDisk = true → directories config.spillDir = true) :
    (∃ pages contents, HashIndex.Holds index pages contents []) ∧
      index.bucketCapacity = BucketPage.capacity config.pageSize := by
  have bounds : 24 ≤ config.pageSize ∧ config.pageSize ≤ Config.maxPageSize := by
    unfold HashIndex.ofConfig HashIndex.make at made
    split at made
    · cases made
    · split at made
      · cases made
      · rename_i small holding
        unfold BucketPage.capacity BucketPage.headerSize BucketPage.entrySize at holding
        omega
  obtain ⟨_, pages, contents, made', holds, sized, -⟩ := HashIndex.make_holds (PageStore.ofConfig config directories)
    config.poolPages config.pageSize bounds.1 bounds.2
    (PageStore.of_config_reads_back config directories bounds.2 usable)
  obtain rfl := Except.ok.inj (made.symm.trans made')
  exact ⟨⟨pages, contents, holds⟩, sized ▸ holds.capacity⟩

theorem sifted_told (config : Config) (directories : Directories) (index : HashIndex PageStore)
    (made : HashIndex.ofConfig config directories = .ok index)
    (usable : config.spillToDisk = true → directories config.spillDir = true) (stream : Stream)
    (told : Row.ToldApart config.pageSize stream.rows) : stream.sifted index = stream.distinct := by
  obtain ⟨⟨pages, contents, holds⟩, capacity⟩ := of_config_made config directories index made usable
  rw [Stream.distinct, ← Row.first_by_faithful stream.rows told.faithful]
  refine sift_uncrowded holds (stream.rows.map Row.fingerprint).dedup
    (fun row member => List.mem_dedup.mpr (List.mem_map_of_mem member)) (List.nil_subset _) fun fp member => ?_
  obtain ⟨row, listed, rfl⟩ := List.mem_map.mp (List.mem_dedup.mp member)
  rw [capacity]
  exact told.roomy row listed

theorem distinct_streams {meaning : Outcome Stream} (channel : Channel)
    (usable : setting.base.CanSpill)
    (told : ∀ stream, meaning = .ok stream → Row.ToldApart setting.base.config.pageSize stream.rows)
    (streams : child.Streams setting meaning) :
    (distinct child channel).Streams setting (do
      let stream ← meaning
      let _ ← HashIndex.ofConfig setting.base.config setting.base.directories
      return stream.distinct) := by
  have sifts := distinct_sifts channel streams
  cases meaning with
  | error e => exact sifts
  | ok stream =>
      change (distinct child channel).Streams setting (HashIndex.ofConfig setting.base.config setting.base.directories >>= fun index =>
        .ok (stream.sifted index)) at sifts
      change (distinct child channel).Streams setting (HashIndex.ofConfig setting.base.config setting.base.directories >>= fun _ =>
        .ok stream.distinct)
      cases made : HashIndex.ofConfig setting.base.config setting.base.directories with
      | error e => rwa [made] at sifts
      | ok index =>
          rw [made] at sifts
          rwa [← sifted_told setting.base.config setting.base.directories index made usable stream (told stream rfl)]

theorem Heard.sooner {stopped later : Bool} {stream : Stream} {response : Response} (heard : Heard stopped stream response)
    (implies : stopped = true → later = true) : Heard later stream response :=
  heard.imp_right fun ⟨stop, cancelled⟩ => ⟨implies stop, cancelled⟩

theorem heard_fails {stopped : Bool} {stream : Stream} {response : Response} (heard : Heard stopped stream response)
    (failed : fails response = true) : stream.errors ≠ [] := by
  rcases heard with gives | ⟨-, rfl⟩
  · cases response with
    | ok rows => cases failed
    | error e => exact List.ne_nil_of_mem gives
  · cases failed

namespace MapStage

-- A map task that has a stream before it, or has some of its rows already, or has ended.
def Underway (child : Source σ) (setting : Setting) (meaning : Outcome Stream) (stopped : Bool) : MapStage σ → Prop
  | .waiting => child.Streams setting meaning
  | .pulling s pulled => ∃ stream rest, meaning = .ok stream ∧ stream.rows = pulled ++ rest ∧
      child.Plays setting stream.errors rest s
  | .ended response => Heard stopped (.ofStart meaning) response

variable {meaning : Outcome Stream} {stopped : Bool} {stage : MapStage σ}

theorem underway_later (underway : stage.Underway child setting meaning stopped) {later : Bool}
    (implies : stopped = true → later = true) : stage.Underway child setting meaning later := by
  cases stage with
  | waiting => exact underway
  | pulling s rows => exact underway
  | ended response => exact underway.sooner implies

theorem underway_failed (underway : stage.Underway child setting meaning stopped) (failed : stage.failed = true) :
    (Stream.ofStart meaning).errors ≠ [] := by
  cases stage with
  | waiting => cases failed
  | pulling s rows => cases failed
  | ended response => exact heard_fails underway failed

theorem turn_underway (underway : stage.Underway child setting meaning ctx.cancelled) (admits : setting.Admits ctx engine) :
    ∃ next later, stage.turn child ctx engine = (next, later) ∧ next.Underway child setting meaning ctx.cancelled ∧
      setting.base.Alike later := by
  cases stage with
  | waiting =>
      have begins := underway ctx engine admits
      rw [turn]
      generalize child.start ctx engine = outcome at begins
      cases begins with
      | @begun stream s plays => exact ⟨_, engine, rfl, ⟨stream, stream.rows, rfl, rfl, plays⟩, admits.alike⟩
      | refused e => exact ⟨_, engine, rfl, .inl List.mem_cons_self, admits.alike⟩
      | cancelled stopped => exact ⟨_, engine, rfl, .inr ⟨stopped, rfl⟩, admits.alike⟩
  | pulling s pulled =>
      obtain ⟨stream, rest, rfl, whole, plays⟩ := underway
      have hands := plays.hands admits
      rw [turn]
      generalize child.pull ctx s engine = answer at hands
      obtain ⟨rows, errors⟩ := stream
      cases hands with
      | @row row rest _ _ later kept playing =>
          exact ⟨_, later, rfl, ⟨_, rest, rfl, by rw [whole, List.append_assoc, List.singleton_append], playing⟩, kept⟩
      | @done _ later kept =>
          exact ⟨_, later, rfl, .inl ⟨rfl, (whole.trans (List.append_nil pulled)).symm⟩, kept⟩
      | @failed _ e _ later kept among => exact ⟨_, later, rfl, .inl among, kept⟩
      | @cancelled _ _ later kept stopped => exact ⟨_, later, rfl, .inr ⟨stopped, rfl⟩, kept⟩
  | ended response => exact ⟨_, engine, rfl, underway, admits.alike⟩

theorem turn_failed (failed : stage.failed = true) : stage.turn child ctx engine = (stage, engine) := by
  cases stage with
  | waiting => cases failed
  | pulling s rows => cases failed
  | ended response => rfl

theorem finish_failed (failed : stage.failed = true) : fails (stage.finish child ctx engine).1 = true := by
  cases stage with
  | waiting => cases failed
  | pulling s rows => cases failed
  | ended response => exact failed

theorem finish_underway (underway : stage.Underway child setting meaning ctx.cancelled) (admits : setting.Admits ctx engine) :
    ∃ response later, stage.finish child ctx engine = (response, later) ∧ setting.base.Alike later ∧
      Heard ctx.cancelled (.ofStart meaning) response := by
  cases stage with
  | waiting => exact collect_streams underway admits
  | pulling s pulled =>
      obtain ⟨stream, rest, rfl, whole, plays⟩ := underway
      obtain ⟨response, t, later, drained, kept, heard⟩ := drain_plays plays admits
      refine ⟨_, later, by rw [finish, drained], kept, ?_⟩
      rcases heard with gives | ⟨stopped, rfl⟩
      · cases response with
        | ok handed =>
            obtain ⟨unfailing, rfl⟩ : stream.errors = [] ∧ handed = rest := gives
            exact .inl ⟨unfailing, whole.symm⟩
        | error e => exact .inl gives
      · exact .inr ⟨stopped, rfl⟩
  | ended response => exact ⟨response, engine, rfl, admits.alike, underway⟩

end MapStage

namespace MapRun

-- A task of a run, together with what its child means there. It can be stopped only where that is agreed.
structure TaskUnderway (child : Source σ) (base : Engine) (mayStop stopped : Bool) (entry : Context × MapStage σ)
    (meaning : Outcome Stream) : Prop where
  running : entry.1.cancelled = false
  agreed : (Stream.ofStart meaning).errors ≠ [] → mayStop = true
  stage : entry.2.Underway child ⟨entry.1, base, mayStop⟩ meaning stopped

-- Every task is on its way, and who stopped the others has failed.
structure Underway (child : Source σ) (base : Engine) (mayStop : Bool) (meanings : List (Outcome Stream))
    (run : MapRun σ) : Prop where
  tasks : List.Forall₂ (TaskUnderway child base mayStop run.stopped) run.stages meanings
  blamed : run.stopped = true → ∃ entry ∈ run.stages, entry.2.failed = true
  alike : base.Alike run.engine

variable {mayStop stopped : Bool} {meaning : Outcome Stream} {meanings : List (Outcome Stream)} {run : MapRun σ}
  {entry : Context × MapStage σ} {stages : List (Context × MapStage σ)}

theorem task_later (task : TaskUnderway child base mayStop stopped entry meaning) {later : Bool}
    (implies : stopped = true → later = true) : TaskUnderway child base mayStop later entry meaning :=
  ⟨task.running, task.agreed, MapStage.underway_later task.stage implies⟩

theorem task_stopped (task : TaskUnderway child base mayStop stopped entry meaning) :
    (entry.1.stopped stopped).cancelled = stopped := by
  rw [Context.stopped, task.running, Bool.false_or]

theorem run_stoppable (underway : run.Underway child base mayStop meanings) : run.stopped ≤ mayStop := by
  intro stopped
  obtain ⟨entry, member, failed⟩ := underway.blamed stopped
  obtain ⟨meaning, -, task⟩ := forall₂_origin underway.tasks.flip entry member
  exact task.agreed (MapStage.underway_failed task.stage failed)

theorem turn_underway (underway : run.Underway child base mayStop meanings) (i : Nat) :
    (run.turn child i).Underway child base mayStop meanings := by
  rw [turn]
  split
  · rename_i ctx stage held
    obtain ⟨meaning, known, task⟩ := forall₂_at underway.tasks i (ctx, stage) held
    have staged := task.stage
    rw [← task_stopped task] at staged
    obtain ⟨next, later, turned, staged', kept⟩ :=
      MapStage.turn_underway staged ⟨⟨run.stopped, run_stoppable underway, rfl⟩, underway.alike⟩
    rw [task_stopped task] at staged'
    have implies (stopped : run.stopped = true) : (run.stopped || next.failed) = true := by rw [stopped, Bool.true_or]
    rw [turned]
    refine ⟨?_, fun stopped => ?_, kept⟩
    · exact forall₂_set (underway.tasks.imp fun _ _ other => task_later other implies) i known
        ⟨task.running, task.agreed, MapStage.underway_later staged' implies⟩
    · obtain ⟨inside, -⟩ := List.getElem?_eq_some_iff.mp held
      rcases Bool.or_eq_true_iff.mp stopped with before | now
      · obtain ⟨entry, member, failed⟩ := underway.blamed before
        obtain ⟨j, own⟩ := List.mem_iff_getElem?.mp member
        by_cases same : i = j
        · subst same
          obtain rfl := Option.some.inj (held.symm.trans own)
          rw [MapStage.turn_failed failed] at turned
          obtain ⟨rfl, -⟩ := Prod.mk.inj turned
          exact ⟨_, List.mem_set inside _, failed⟩
        · exact ⟨entry, List.mem_of_getElem? ((List.getElem?_set_ne same).trans own), failed⟩
      · exact ⟨_, List.mem_set inside _, now⟩
  · exact underway

theorem turns_underway (underway : run.Underway child base mayStop meanings) (turns : List Nat) :
    (turns.foldl (turn child) run).Underway child base mayStop meanings := by
  induction turns generalizing run with
  | nil => exact underway
  | cons i turns ih => exact ih (turn_underway underway i)

-- The tasks finish one after the other. Whoever failed before shows in the responses.
theorem finish_underway (tasks : List.Forall₂ (TaskUnderway child base mayStop stopped) stages meanings)
    (stoppable : stopped ≤ mayStop) (alike : base.Alike engine) :
    ∃ responses later, finish child stopped stages engine = (responses, later) ∧ base.Alike later ∧
      List.Forall₂ (fun meaning => Heard (stopped || responses.any fails) (.ofStart meaning)) meanings responses ∧
      ((∃ entry ∈ stages, entry.2.failed = true) → responses.any fails = true) := by
  induction stages generalizing meanings stopped engine with
  | nil =>
      cases tasks
      exact ⟨[], engine, rfl, alike, .nil, fun ⟨_, member, _⟩ => nomatch member⟩
  | cons entry stages ih =>
      obtain _ | ⟨task, tasks⟩ := tasks
      obtain ⟨ctx, stage⟩ := entry
      have staged := task.stage
      rw [← task_stopped task] at staged
      obtain ⟨response, later, finished, kept, heard⟩ :=
        MapStage.finish_underway staged ⟨⟨stopped, stoppable, rfl⟩, alike⟩
      rw [task_stopped task] at heard
      have implies (stop : stopped = true) : (stopped || fails response) = true := by rw [stop, Bool.true_or]
      have stoppable' : (stopped || fails response) ≤ mayStop := by
        intro stop
        rcases Bool.or_eq_true_iff.mp stop with before | now
        · exact stoppable before
        · exact task.agreed (heard_fails heard now)
      obtain ⟨responses, last, others, still, heardAll, shown⟩ :=
        ih (tasks.imp fun _ _ other => task_later other implies) stoppable' kept
      refine ⟨response :: responses, last, ?_, still, ?_, ?_⟩
      · rw [finish, finished]
        change ((response :: (finish child _ stages later).1), (finish child _ stages later).2) = _
        rw [others]
      · rw [List.any_cons, ← Bool.or_assoc]
        exact .cons (heard.sooner fun stop => by rw [stop, Bool.true_or, Bool.true_or]) heardAll
      · rintro ⟨entry, member, failed⟩
        rw [List.any_cons, Bool.or_eq_true_iff]
        rcases List.mem_cons.mp member with rfl | among
        · have failing : fails (stage.finish child (ctx.stopped stopped) engine).1 = true := MapStage.finish_failed failed
          rw [finished] at failing
          exact .inl failing
        · exact .inr (shown ⟨entry, among, failed⟩)

end MapRun

theorem collect_all_underway {contexts : List Context} {mayStop : Bool} {meanings : List (Outcome Stream)}
    (turns : List Nat) (alike : base.Alike engine)
    (tasks : List.Forall₂ (fun ctx meaning => ctx.cancelled = false ∧
      ((Stream.ofStart meaning).errors ≠ [] → mayStop = true) ∧ child.Streams ⟨ctx, base, mayStop⟩ meaning) contexts meanings) :
    ∃ responses later, child.collectAll turns contexts engine = (responses, later) ∧ base.Alike later ∧
      List.Forall₂ (fun meaning => Heard (responses.any fails) (.ofStart meaning)) meanings responses := by
  have opening : (MapRun.opening contexts engine : MapRun σ).Underway child base mayStop meanings := by
    refine ⟨?_, nofun, alike⟩
    change List.Forall₂ _ (contexts.map (·, MapStage.waiting)) meanings
    rw [List.forall₂_map_left_iff]
    exact tasks.imp fun ctx meaning task => ⟨task.1, task.2.1, task.2.2⟩
  have turned := MapRun.turns_underway opening turns
  obtain ⟨responses, later, finished, kept, heard, shown⟩ :=
    MapRun.finish_underway turned.tasks (MapRun.run_stoppable turned) turned.alike
  refine ⟨responses, later, finished, kept, heard.imp fun meaning response first => first.sooner fun stop => ?_⟩
  rcases Bool.or_eq_true_iff.mp stop with before | now
  · exact shown (turned.blamed before)
  · exact now

end Source

namespace MapReduce

open Source

variable {parts : List Stream} {responses : List Response} {stopped : Bool}

theorem reported_heard (node : ClusterNode) {stream : Stream} {response : Response} (heard : Heard stopped stream response) :
    Heard stopped (stream.from node) (reported node response) := by
  rcases heard with gives | ⟨stop, rfl⟩
  · cases response with
    | ok rows =>
        obtain ⟨unfailing, rfl⟩ : stream.errors = [] ∧ rows = stream.rows := gives
        exact .inl ⟨by rw [Stream.from, unfailing]; rfl, rfl⟩
    | error e =>
        have among : heard node e ∈ (stream.from node).errors := List.mem_map_of_mem gives
        cases e <;> exact .inl among
  · exact .inr ⟨stop, rfl⟩

theorem reported_fails (node : ClusterNode) (response : Response) : fails (reported node response) = fails response := by
  cases response with
  | ok rows => rfl
  | error e => cases e <;> rfl

theorem reported_all (nodes : List ClusterNode) (heard : List.Forall₂ (Heard stopped) parts responses) :
    List.Forall₂ (Heard stopped) (List.zipWith (fun node part => part.from node) nodes parts)
      (List.zipWith reported nodes responses) := by
  induction heard generalizing nodes with
  | nil => cases nodes <;> exact .nil
  | cons first _ ih =>
      cases nodes with
      | nil => exact .nil
      | cons node nodes => exact .cons (reported_heard node first) (ih nodes)

theorem reported_any_fails (nodes : List ClusterNode) (responses : List Response) (counted : nodes.length = responses.length) :
    (List.zipWith reported nodes responses).any fails = responses.any fails := by
  induction nodes generalizing responses with
  | nil => rw [List.length_eq_zero_iff.mp counted.symm]; rfl
  | cons node nodes ih =>
      cases responses with
      | nil => cases counted
      | cons response responses =>
          rw [List.zipWith_cons_cons, List.any_cons, List.any_cons, reported_fails, ih responses (Nat.succ.inj counted)]

theorem failure_fails {e : EngineError} (found : firstFailure? responses = some e) :
    .error e ∈ responses ∧ e ≠ .cancelled := by
  obtain ⟨response, member, chosen⟩ := List.exists_of_findSome?_eq_some found
  split at chosen
  · cases chosen
  · rename_i e' other
    obtain rfl := Option.some.inj chosen
    exact ⟨member, fun same => other (same ▸ rfl)⟩
  · cases chosen

theorem unfailed_none (unfailed : firstFailure? responses = none) : responses.any fails = false := by
  rw [firstFailure?, List.findSome?_eq_none_iff] at unfailed
  rw [List.any_eq_false]
  intro response member failed
  have nothing := unfailed response member
  cases response with
  | ok rows => cases failed
  | error e => cases e <;> simp [fails] at failed nothing

theorem rows_of_given (given : List.Forall₂ Stream.Gives parts responses) (unfailed : responses.any fails = false)
    (uncancelled : responses.any wasCancelled = false) :
    parts.flatMap Stream.errors = [] ∧ responses.flatMap rowsOf = parts.flatMap Stream.rows := by
  induction given with
  | nil => exact ⟨rfl, rfl⟩
  | @cons part response parts responses gives _ ih =>
      rw [List.any_cons, Bool.or_eq_false_iff] at unfailed uncancelled
      obtain ⟨unfailing, same⟩ := ih unfailed.2 uncancelled.2
      cases response with
      | error e => cases e <;> simp [fails, wasCancelled] at unfailed uncancelled
      | ok rows =>
          obtain ⟨fine, rfl⟩ : part.errors = [] ∧ rows = part.rows := gives
          rw [List.flatMap_cons, List.flatMap_cons, List.flatMap_cons, fine, unfailing, same]
          exact ⟨rfl, rfl⟩

-- What the responses of all tasks come to, when a cancelled one always has another to blame.
theorem reduce_heard (heard : List.Forall₂ (Heard (responses.any fails)) parts responses) :
    (Stream.together parts).Gives (reduce responses) := by
  have failing {e : EngineError} (among : e ∈ parts.flatMap Stream.errors) : (Stream.together parts).Gives (.error e) := by
    rw [Stream.together, if_neg (List.ne_nil_of_mem among)]
    exact among
  rw [reduce]
  cases found : firstFailure? responses with
  | some e =>
      obtain ⟨member, kind⟩ := failure_fails found
      obtain ⟨part, known, gives | ⟨-, same⟩⟩ := forall₂_origin heard _ member
      · exact failing (List.mem_flatMap.mpr ⟨part, known, gives⟩)
      · exact absurd (Except.error.inj same) kind
  | none =>
      have unfailed := unfailed_none found
      have given : List.Forall₂ Stream.Gives parts responses :=
        heard.imp fun part response first => first.resolve_right fun stopped => by
          rw [unfailed] at stopped
          cases stopped.1
      cases cancelled : responses.any wasCancelled with
      | true =>
          obtain ⟨response, member, was⟩ := List.any_eq_true.mp cancelled
          obtain rfl : response = .error .cancelled := by
            cases response with
            | ok rows => cases was
            | error e => cases e <;> first | rfl | simp [wasCancelled] at was
          obtain ⟨part, known, gives⟩ := forall₂_origin given _ member
          exact failing (List.mem_flatMap.mpr ⟨part, known, gives⟩)
      | false =>
          obtain ⟨unfailing, same⟩ := rows_of_given given unfailed cancelled
          rw [Stream.together, if_pos unfailing]
          exact ⟨rfl, same⟩

end MapReduce

namespace Source

variable {σ : Type} {child : Source σ} {setting : Setting}

theorem nodes_for_alike (ctx : Context) (table : TableId) {base engine : Engine} (alike : base.Alike engine) :
    nodesFor ctx table engine = nodesFor ctx table base := by
  obtain ⟨warnings, rfl⟩ := alike
  rfl

theorem together_whole (parts : List Stream) : (Stream.together parts).errors ≠ [] → (Stream.together parts).rows = [] := by
  rw [Stream.together]
  split
  · exact fun failing => absurd rfl failing
  · exact fun _ => rfl

theorem collect_on_streams {base engine : Engine} {ctx : Context} {mayStop : Bool} (nodes : List ClusterNode)
    (meaning : ClusterNode → Outcome Stream) (live : ctx.check base.clock = .ok ()) (alike : base.Alike engine)
    (tasks : ∀ node ∈ nodes, ((Stream.ofStart (meaning node)).errors ≠ [] → mayStop = true) ∧
      child.Streams ⟨ctx.onNode nodes node, base, mayStop⟩ (meaning node)) :
    ∃ response later, child.collectOn ctx nodes engine = (response, later) ∧ base.Alike later ∧
      (Stream.together (nodes.map fun node => (Stream.ofStart (meaning node)).from node)).Gives response := by
  have contexts : List.Forall₂ (fun ctx meaning => ctx.cancelled = false ∧
      ((Stream.ofStart meaning).errors ≠ [] → mayStop = true) ∧ child.Streams ⟨ctx, base, mayStop⟩ meaning)
      (nodes.map (ctx.onNode nodes)) (nodes.map meaning) := by
    rw [List.forall₂_map_left_iff, List.forall₂_map_right_iff, List.forall₂_same]
    exact fun node member => ⟨Context.running_of_check live, tasks node member⟩
  obtain ⟨responses, later, collected, kept, heard⟩ := collect_all_underway ctx.turns alike contexts
  refine ⟨_, later, by rw [collectOn, collected], kept, ?_⟩
  have counted : nodes.length = responses.length := by rw [← heard.length_eq, List.length_map]
  have reported := MapReduce.reported_all nodes (List.forall₂_map_left_iff.mpr heard)
  rw [← MapReduce.reported_any_fails nodes responses counted, List.map_map, List.zipWith_map_right, List.zipWith_self]
    at reported
  obtain ⟨warnings, rfl⟩ := kept
  change (Stream.together _).Gives (ctx.check base.clock >>= fun _ => MapReduce.reduce _)
  rw [live]
  exact MapReduce.reduce_heard reported

-- The nodes of a run that is not asked to stop, whatever they come to.
theorem fan_out_streams (table : TableId) (live : setting.Live) (mayStop : Bool)
    (meaning : Context → Outcome Stream)
    (tasks : ∀ nodes, nodesFor setting.ctx table setting.base = .ok nodes → ∀ node ∈ nodes,
      ((Stream.ofStart (meaning (setting.ctx.onNode nodes node))).errors ≠ [] → mayStop = true) ∧
      child.Streams ⟨setting.ctx.onNode nodes node, setting.base, mayStop⟩ (meaning (setting.ctx.onNode nodes node))) :
    (fanOut child table).Streams setting (.ok (match nodesFor setting.ctx table setting.base with
      | .ok nodes => .together (nodes.map fun node => (Stream.ofStart (meaning (setting.ctx.onNode nodes node))).from node)
      | .error e => .failing e)) := by
  intro ctx engine admits
  refine .begun (s := ((), none)) (checked_plays live ?_)
  refine gathered_plays _ _ _ _ () _ ?_ fun ctx engine admits => ?_
  · split
    · exact together_whole _
    · exact fun _ => rfl
  · obtain ⟨⟨stop, unstopped, rfl⟩, alike⟩ := admits
    obtain rfl : stop = false := by
      cases stop with
      | false => rfl
      | true => exact nomatch unstopped rfl
    rw [Context.stopped_false, nodes_for_alike _ table alike]
    cases placed : nodesFor setting.ctx table setting.base with
    | error e => exact ⟨_, (), engine, rfl, alike, .inl List.mem_cons_self⟩
    | ok nodes =>
        obtain ⟨response, later, collected, kept, gives⟩ :=
          collect_on_streams nodes (fun node => meaning (setting.ctx.onNode nodes node)) live alike (tasks nodes placed)
        exact ⟨response, (), later, by simp only [collected], kept, .inl gives⟩

end Source

end ShardQuery
