import ShardQuery.Proofs.Cursor.Drain
import ShardQuery.Proofs.Cursor.Reading
import ShardQuery.Proofs.Cursor.Streams
/-!
Sources that play streams, pull by pull. Main statements: what a drain makes of a stream, and the streams that
listings, scans, filters, projections and windows play, also where they may be asked to stop in the meantime.
-/

set_option autoImplicit false

namespace ShardQuery

namespace Context

theorem stopped_false (ctx : Context) : ctx.stopped false = ctx := by
  rw [stopped, Bool.or_false]

theorem running_of_check {ctx : Context} {clock : Nat} (live : ctx.check clock = .ok ()) : ctx.cancelled = false := by
  cases cancelled : ctx.cancelled with
  | false => rfl
  | true =>
      rw [check, cancelled] at live
      cases live

theorem check_stopped {ctx : Context} {clock : Nat} (live : ctx.check clock = .ok ()) (stop : Bool) :
    (ctx.stopped stop).check clock = if stop then .error .cancelled else .ok () := by
  cases stop with
  | false => rw [stopped_false, live]; rfl
  | true => simp [check, stopped]

end Context

namespace Source

-- A run: its context, the engine it began with, and whether it may be asked to stop.
structure Setting where
  ctx : Context
  base : Engine
  mayStop : Bool

-- What the run may come upon: only warnings are added to the engine.
structure Setting.Admits (setting : Setting) (ctx : Context) (engine : Engine) : Prop where
  context : ∃ stop, stop ≤ setting.mayStop ∧ ctx = setting.ctx.stopped stop
  alike : setting.base.Alike engine

def Setting.Live (setting : Setting) : Prop := setting.ctx.check setting.base.clock = .ok ()

variable {σ τ : Type} {source child : Source σ} {setting : Setting} {ctx : Context} {engine later : Engine}
  {stream : Stream} {errors : List EngineError} {rows : List Row} {s : σ}

theorem Setting.Admits.on (admits : setting.Admits ctx engine) (kept : setting.base.Alike later) :
    setting.Admits ctx later := ⟨admits.context, kept⟩

theorem Setting.Live.check (live : setting.Live) (admits : setting.Admits ctx engine) :
    ctx.check engine.clock = if ctx.cancelled then .error .cancelled else .ok () := by
  obtain ⟨⟨stop, -, rfl⟩, warnings, rfl⟩ := admits
  change (setting.ctx.stopped stop).check setting.base.clock = _
  rw [Context.check_stopped live]
  simp only [Context.stopped, Context.running_of_check live, Bool.false_or]

-- One pull: the next row, with what holds of the state behind it, or how the stream ends. Whoever is asked to stop may
-- answer so at any pull.
inductive Hands (base : Engine) (ctx : Context) (next : σ → Prop) : Stream → Pulled σ → Prop
  | row {row : Row} {rows : List Row} {errors : List EngineError} {t : σ} {later : Engine}
      (kept : base.Alike later) (rest : next t) : Hands base ctx next ⟨row :: rows, errors⟩ ⟨.row row, t, later⟩
  | done {t : σ} {later : Engine} (kept : base.Alike later) : Hands base ctx next ⟨[], []⟩ ⟨.done, t, later⟩
  | failed {errors : List EngineError} {e : EngineError} {t : σ} {later : Engine} (kept : base.Alike later)
      (among : e ∈ errors) : Hands base ctx next ⟨[], errors⟩ ⟨.failed e, t, later⟩
  | cancelled {stream : Stream} {t : σ} {later : Engine} (kept : base.Alike later)
      (stopped : ctx.cancelled = true) : Hands base ctx next stream ⟨.failed .cancelled, t, later⟩

def Plays (source : Source σ) (setting : Setting) (errors : List EngineError) : List Row → σ → Prop
  | [], s => ∀ ctx engine, setting.Admits ctx engine →
      Hands setting.base ctx (fun _ => True) ⟨[], errors⟩ (source.pull ctx s engine)
  | row :: rows, s => ∀ ctx engine, setting.Admits ctx engine →
      Hands setting.base ctx (Plays source setting errors rows) ⟨row :: rows, errors⟩ (source.pull ctx s engine)

theorem Hands.imp {base : Engine} {next next' : σ → Prop} {pulled : Pulled σ} (hands : Hands base ctx next stream pulled)
    (implies : ∀ t, next t → next' t) : Hands base ctx next' stream pulled := by
  cases hands with
  | row kept rest => exact .row kept (implies _ rest)
  | done kept => exact .done kept
  | failed kept among => exact .failed kept among
  | cancelled kept stopped => exact .cancelled kept stopped

theorem Plays.hands (plays : source.Plays setting errors rows s) (admits : setting.Admits ctx engine) :
    Hands setting.base ctx (source.Plays setting errors rows.tail) ⟨rows, errors⟩ (source.pull ctx s engine) := by
  cases rows with
  | cons row rows => exact plays ctx engine admits
  | nil =>
      have hands := plays ctx engine admits
      generalize source.pull ctx s engine = pulled at hands
      cases hands with
      | done kept => exact .done kept
      | failed kept among => exact .failed kept among
      | cancelled kept stopped => exact .cancelled kept stopped

-- A relation of states to streams that every pull keeps.
theorem plays_of_hands (remains : σ → Stream → Prop) (hands : ∀ s stream ctx engine, remains s stream →
      setting.Admits ctx engine →
      Hands setting.base ctx (fun t => remains t ⟨stream.rows.tail, stream.errors⟩) stream (source.pull ctx s engine))
    (begun : remains s ⟨rows, errors⟩) : source.Plays setting errors rows s := by
  induction rows generalizing s with
  | nil => exact fun ctx engine admits => (hands s _ ctx engine begun admits).imp fun _ _ => trivial
  | cons row rows ih => exact fun ctx engine admits => (hands s _ ctx engine begun admits).imp fun _ rest => ih rest

-- What starting comes to.
inductive Begins (source : Source σ) (setting : Setting) (ctx : Context) : Outcome Stream → Outcome σ → Prop
  | begun {stream : Stream} {s : σ} (plays : source.Plays setting stream.errors stream.rows s) :
      Begins source setting ctx (.ok stream) (.ok s)
  | refused (e : EngineError) : Begins source setting ctx (.error e) (.error e)
  | cancelled {meaning : Outcome Stream} (stopped : ctx.cancelled = true) :
      Begins source setting ctx meaning (.error .cancelled)

def Streams (source : Source σ) (setting : Setting) (meaning : Outcome Stream) : Prop :=
  ∀ ctx engine, setting.Admits ctx engine → Begins source setting ctx meaning (source.start ctx engine)

-- A response that says what the stream gives, or that the run was asked to stop.
def Heard (stopped : Bool) (stream : Stream) (response : Response) : Prop :=
  stream.Gives response ∨ stopped = true ∧ response = .error .cancelled

theorem drain_plays (plays : source.Plays setting errors rows s) (admits : setting.Admits ctx engine) :
    ∃ response t later, source.drain ctx s engine = ⟨response, t, later⟩ ∧ setting.base.Alike later ∧
      Heard ctx.cancelled ⟨rows, errors⟩ response := by
  induction rows generalizing s engine with
  | nil =>
      have hands := plays ctx engine admits
      generalize pulled : source.pull ctx s engine = answer at hands
      cases hands with
      | done kept => exact ⟨_, _, _, drain_done pulled, kept, .inl ⟨rfl, rfl⟩⟩
      | failed kept among => exact ⟨_, _, _, drain_failed pulled, kept, .inl among⟩
      | cancelled kept stopped => exact ⟨_, _, _, drain_failed pulled, kept, .inr ⟨stopped, rfl⟩⟩
  | cons row rows ih =>
      have hands := plays ctx engine admits
      generalize pulled : source.pull ctx s engine = answer at hands
      cases hands with
      | row kept rest =>
          obtain ⟨response, t, later, drained, still, heard⟩ := ih rest (admits.on kept)
          refine ⟨_, t, later, by rw [drain_row pulled, drained], still, ?_⟩
          rcases heard with gives | ⟨stopped, rfl⟩
          · cases response with
            | ok handed => exact .inl ⟨gives.1, by rw [gives.2]⟩
            | error e => exact .inl gives
          · exact .inr ⟨stopped, rfl⟩
      | cancelled kept stopped => exact ⟨_, _, _, drain_failed pulled, kept, .inr ⟨stopped, rfl⟩⟩

theorem collect_streams {meaning : Outcome Stream} (streams : source.Streams setting meaning)
    (admits : setting.Admits ctx engine) :
    ∃ response later, source.collect ctx engine = (response, later) ∧ setting.base.Alike later ∧
      Heard ctx.cancelled (.ofStart meaning) response := by
  have begins := streams ctx engine admits
  rw [collect]
  generalize started : source.start ctx engine = outcome at begins
  cases begins with
  | begun plays =>
      obtain ⟨response, t, later, drained, kept, heard⟩ := drain_plays plays admits
      exact ⟨response, later, by simp only [drained], kept, heard⟩
  | refused e => exact ⟨_, engine, rfl, admits.alike, .inl List.mem_cons_self⟩
  | cancelled stopped => exact ⟨_, engine, rfl, admits.alike, .inr ⟨stopped, rfl⟩⟩

theorem guarded_plays (plays : child.Plays setting errors rows s) : child.guarded.Plays setting errors rows s := by
  refine plays_of_hands (fun s stream => child.Plays setting stream.errors stream.rows s) ?_ plays
  exact fun s stream ctx engine plays admits => plays.hands admits

-- A source over a child that begins as the child does.
theorem Begins.lift {other : Source τ} {meaning : Outcome Stream} {outcome : Outcome σ} (change : Stream → Stream)
    (wrap : σ → τ) (begins : child.Begins setting ctx meaning outcome)
    (plays : ∀ stream s, child.Plays setting stream.errors stream.rows s →
      other.Plays setting (change stream).errors (change stream).rows (wrap s)) :
    other.Begins setting ctx (meaning.map change) (outcome.map wrap) := by
  cases begins with
  | begun playing => exact .begun (plays _ _ playing)
  | refused e => exact .refused e
  | cancelled stopped => exact .cancelled stopped

theorem guarded_streams {meaning : Outcome Stream} (live : setting.Live) (streams : child.Streams setting meaning) :
    child.guarded.Streams setting meaning := by
  intro ctx engine admits
  have begins := streams ctx engine admits
  change Begins child.guarded setting ctx meaning (ctx.check engine.clock >>= fun _ => child.start ctx engine)
  rw [live.check admits]
  cases stopped : ctx.cancelled with
  | true => exact .cancelled stopped
  | false =>
      have lifted := begins.lift id id fun stream s plays => guarded_plays plays
      rwa [Except.map_id, Except.map_id] at lifted

-- A source that checks before each pull is only ever pulled while it may go on.
theorem checked_plays (live : setting.Live) (plays : child.Plays { setting with mayStop := false } errors rows s) :
    child.checked.Plays setting errors rows s := by
  refine plays_of_hands (fun s stream => child.Plays { setting with mayStop := false } stream.errors stream.rows s) ?_ plays
  intro s stream ctx engine plays admits
  have checks := live.check admits
  cases stopped : ctx.cancelled with
  | true =>
      rw [checked_failed (checks.trans (if_pos stopped))]
      exact .cancelled admits.alike stopped
  | false =>
      rw [checked_running (checks.trans (if_neg (Bool.eq_false_iff.mp stopped)))]
      obtain ⟨⟨stop, -, rfl⟩, alike⟩ := admits
      have going : stop = false := (Bool.or_eq_false_iff.mp stopped).2
      exact plays.hands ⟨⟨false, Bool.false_le _, by rw [going]⟩, alike⟩

section Gathered

variable (start : Context → Engine → Outcome τ) (gather : Context → τ → Engine → Gathering τ) (close : τ → τ)
  (spillFiles : τ → Nat)

theorem stock_plays (rows : List Row) (left : τ) :
    (gathered start gather close spillFiles).Plays setting [] rows (left, some rows) := by
  refine plays_of_hands (fun s stream => s.2 = some stream.rows ∧ stream.errors = []) ?_ ⟨rfl, rfl⟩
  rintro ⟨left, stock⟩ ⟨rows, errors⟩ ctx engine ⟨stocked, unfailing⟩ admits
  cases stocked
  cases unfailing
  cases rows with
  | nil => exact .done admits.alike
  | cons row rows => exact .row admits.alike ⟨rfl, rfl⟩

-- Rows that are gathered at the first pull. Nothing is asked for once they are there.
theorem gathered_plays (t : τ) (stream : Stream) (whole : stream.errors ≠ [] → stream.rows = [])
    (gathers : ∀ ctx engine, setting.Admits ctx engine → ∃ response left later,
      gather ctx t engine = (response, left, later) ∧ setting.base.Alike later ∧ Heard ctx.cancelled stream response) :
    (gathered start gather close spillFiles).Plays setting stream.errors stream.rows (t, none) := by
  refine plays_of_hands (fun s rest => s.2 = none ∧ s.1 = t ∧ rest = stream ∨
    (gathered start gather close spillFiles).Plays setting rest.errors rest.rows s) ?_ (.inl ⟨rfl, rfl, rfl⟩)
  rintro ⟨t, stock⟩ rest ctx engine (⟨rfl, rfl, rfl⟩ | plays) admits
  · obtain ⟨response, left, later, gathered', kept, heard⟩ := gathers ctx engine admits
    obtain ⟨rows, errors⟩ := rest
    simp only [gathered, gathered']
    rcases heard with gives | ⟨stopped, rfl⟩
    · cases response with
      | ok handed =>
          obtain ⟨unfailing, rfl⟩ : errors = [] ∧ handed = rows := gives
          subst unfailing
          cases handed with
          | nil => exact .done kept
          | cons row rows => exact .row kept (.inr (stock_plays start gather close spillFiles rows left))
      | error e =>
          have among : e ∈ errors := gives
          obtain rfl : rows = [] := whole (List.ne_nil_of_mem among)
          exact .failed kept among
    · exact .cancelled kept stopped
  · exact (plays.hands admits).imp fun _ rest => .inr rest

end Gathered

theorem of_outcome_whole (response : Outcome (List Row)) :
    (Stream.ofOutcome response).errors ≠ [] → (Stream.ofOutcome response).rows = [] := by
  cases response with
  | ok rows => exact fun failing => absurd rfl failing
  | error e => exact fun _ => rfl

theorem of_outcome_gives (response : Outcome (List Row)) : (Stream.ofOutcome response).Gives response := by
  cases response with
  | ok rows => exact ⟨rfl, rfl⟩
  | error e => exact List.mem_cons_self

theorem listing_streams (listed : Context → Engine → Outcome (List Row)) (response : Outcome (List Row))
    (live : setting.Live) (asked : ∀ ctx engine, setting.base.Alike engine → listed ctx engine = response) :
    (listing listed).Streams setting (.ok (.ofOutcome response)) := by
  intro ctx engine admits
  refine .begun (s := ((), none)) (checked_plays live ?_)
  refine gathered_plays _ _ _ _ () _ (of_outcome_whole response) fun ctx engine admits => ?_
  exact ⟨response, (), engine, by rw [asked ctx engine admits.alike], admits.alike, .inl (of_outcome_gives response)⟩

section Scan

variable {table : TableId} {fields : List String}

-- What a scan has yet to hand out: its buffer, and the shards that it has yet to read.
def scanRemains (store : Store) (table : TableId) (fields : List String) (scan : Scan) : Stream :=
  .ofParts (.ok scan.buffer :: scan.pending.map (store.readShard scan.node? table · fields))

theorem read_on_hands {base : Engine} (alike : base.Alike engine) (node? : Option NodeId) (pending : List ShardId) :
    let remains := scanRemains base.store table fields ⟨node?, pending, []⟩
    let read := Scan.readOn base.store node? table fields pending
    Hands base ctx (fun t => scanRemains base.store table fields t = ⟨remains.rows.tail, remains.errors⟩)
      remains ⟨read.1, read.2, engine⟩ := by
  induction pending with
  | nil => exact .done alike
  | cons shard pending ih =>
      simp only [scanRemains, Scan.readOn, List.map_cons]
      cases held : base.store.readShard node? table shard fields with
      | error e => exact .failed alike List.mem_cons_self
      | ok rows =>
          cases rows with
          | nil => exact ih
          | cons row buffer => exact .row alike rfl

theorem scan_plays (live : setting.Live) (s : Scan) :
    (scan table fields).Plays setting (scanRemains setting.base.store table fields s).errors
      (scanRemains setting.base.store table fields s).rows s := by
  refine checked_plays live (plays_of_hands (fun s stream => scanRemains setting.base.store table fields s = stream) ?_ rfl)
  rintro ⟨node?, pending, buffer⟩ stream ctx engine rfl admits
  obtain ⟨warnings, rfl⟩ := admits.alike
  cases buffer with
  | cons row buffer => exact .row ⟨warnings, rfl⟩ rfl
  | nil => exact read_on_hands ⟨warnings, rfl⟩ node? pending

theorem scan_streams (live : setting.Live) :
    (scan table fields).Streams setting (.ok (.ofParts ((scanShards setting.ctx setting.base.store table).map
      (setting.base.store.readShard (setting.ctx.node?.map (·.id)) table · fields)))) := by
  rintro ctx engine ⟨⟨stop, -, rfl⟩, warnings, rfl⟩
  have plays : (scan table fields).Plays setting _ _ _ := scan_plays live
    ⟨setting.ctx.node?.map (·.id), scanShards setting.ctx setting.base.store table, []⟩
  rw [scan_start]
  exact .begun plays

end Scan

theorem filter_hands (predicate : PlanExpr) (seed : Option Row) (plays : child.Plays setting errors rows s)
    (admits : setting.Admits ctx engine) :
    let kept := Stream.keep (predicate.isTrue · seed) ⟨rows, errors⟩
    Hands setting.base ctx (fun t => ∃ rest, child.Plays setting errors rest t ∧
        Stream.keep (predicate.isTrue · seed) ⟨rest, errors⟩ = ⟨kept.rows.tail, kept.errors⟩)
      kept ((filter child predicate seed).pull ctx s engine) := by
  induction rows generalizing s engine with
  | nil =>
      have hands := plays.hands admits
      generalize pulled : child.pull ctx s engine = answer at hands
      cases hands with
      | done kept =>
          simp only [filter, pullFilter, seek_done pulled]
          exact .done kept
      | failed kept among =>
          simp only [filter, pullFilter, seek_failed pulled]
          exact .failed kept among
      | cancelled kept stopped =>
          simp only [filter, pullFilter, seek_failed pulled]
          exact .cancelled kept stopped
  | cons row rows ih =>
      have hands := plays.hands admits
      generalize pulled : child.pull ctx s engine = answer at hands
      cases hands with
      | @row _ _ _ t later kept rest =>
          have sought : (filter child predicate seed).pull ctx s engine = _ := congrArg (Pulled.map Prod.fst)
            ((seek_eq child (fun row _ engine => ⟨predicate.isTrue row seed, (), engine⟩) ctx s () engine).trans
              (by rw [pulled]))
          cases judged : predicate.isTrue row seed with
          | error e =>
              simp only [judged] at sought
              simp only [sought, Stream.keep, List.foldr_cons, judged]
              exact .failed kept List.mem_cons_self
          | ok holds =>
              simp only [judged] at sought
              cases holds with
              | true =>
                  simp only [sought, Stream.keep, List.foldr_cons, judged]
                  exact .row kept ⟨rows, rest, rfl⟩
              | false =>
                  simp only [Stream.keep, List.foldr_cons, judged]
                  rw [sought]
                  exact ih rest (admits.on kept)
      | cancelled kept stopped =>
          simp only [filter, pullFilter, seek_failed pulled]
          exact .cancelled kept stopped

theorem filter_plays (predicate : PlanExpr) (seed : Option Row) (plays : child.Plays setting errors rows s) :
    let kept := Stream.keep (predicate.isTrue · seed) ⟨rows, errors⟩
    (filter child predicate seed).Plays setting kept.errors kept.rows s := by
  refine plays_of_hands (fun t kept => ∃ rest, child.Plays setting errors rest t ∧
    Stream.keep (predicate.isTrue · seed) ⟨rest, errors⟩ = kept) ?_ ⟨rows, plays, rfl⟩
  rintro t kept ctx engine ⟨rest, plays, rfl⟩ admits
  exact filter_hands predicate seed plays admits

theorem filter_streams {meaning : Outcome Stream} (predicate : PlanExpr) (seed : Option Row)
    (streams : child.Streams setting meaning) :
    (filter child predicate seed).Streams setting (meaning.map (.keep (predicate.isTrue · seed))) := by
  intro ctx engine admits
  have lifted := (streams ctx engine admits).lift _ id fun stream s plays => filter_plays predicate seed plays
  rwa [Except.map_id] at lifted

theorem project_plays (exprs : List PlanExpr) (schema : Schema) (seed : Option Row) (plays : child.Plays setting errors rows s) :
    let images := Stream.through (fun row => (exprs.mapM (PlanExpr.eval row seed)).map Row.mk) ⟨rows, errors⟩
    (project child exprs schema seed).Plays setting images.errors images.rows s := by
  refine plays_of_hands (fun t images => ∃ rest, child.Plays setting errors rest t ∧
    Stream.through (fun row => (exprs.mapM (PlanExpr.eval row seed)).map Row.mk) ⟨rest, errors⟩ = images) ?_ ⟨rows, plays, rfl⟩
  rintro t images ctx engine ⟨rest, plays, rfl⟩ admits
  have hands := plays.hands admits
  generalize pulled : child.pull ctx t engine = answer at hands
  cases hands with
  | @row row rest _ _ _ kept playing =>
      cases evaluated : exprs.mapM (PlanExpr.eval row seed) with
      | ok values =>
          simp only [project, pulled, evaluated, Stream.through, List.foldr_cons, Except.map]
          exact .row kept ⟨rest, playing, rfl⟩
      | error e =>
          simp only [project, pulled, evaluated, Stream.through, List.foldr_cons, Except.map]
          exact .failed kept List.mem_cons_self
  | done kept =>
      simp only [project, pulled]
      exact .done kept
  | failed kept among =>
      simp only [project, pulled]
      exact .failed kept among
  | cancelled kept stopped =>
      simp only [project, pulled]
      exact .cancelled kept stopped

theorem project_streams {meaning : Outcome Stream} (exprs : List PlanExpr) (schema : Schema) (seed : Option Row)
    (streams : child.Streams setting meaning) :
    (project child exprs schema seed).Streams setting
      (if exprs.length = schema.size then
        meaning.map (.through fun row => (exprs.mapM (PlanExpr.eval row seed)).map Row.mk)
      else .error (.internal s!"projection of {exprs.length} expressions with {schema.size} columns")) := by
  intro ctx engine admits
  by_cases sized : exprs.length = schema.size
  · have lifted := (streams ctx engine admits).lift _ id fun stream s plays => project_plays exprs schema seed plays
    have started : (project child exprs schema seed).start ctx engine = child.start ctx engine := if_pos sized
    rw [if_pos sized, started]
    rwa [Except.map_id] at lifted
  · have refused : (project child exprs schema seed).start ctx engine = .error _ := if_neg sized
    rw [if_neg sized, refused]
    exact .refused _

-- A window after one of its rows, or after a row that it skips.
theorem within_next (row : Row) (count : Nat) :
    Stream.within 0 count ⟨rows, errors⟩ =
      ⟨(Stream.within 0 (count + 1) ⟨row :: rows, errors⟩).rows.tail,
        (Stream.within 0 (count + 1) ⟨row :: rows, errors⟩).errors⟩ := by
  have reached : (count = 0 ∨ count ≤ rows.length) ↔ count ≤ rows.length := by omega
  simp [Stream.within, reached]

theorem within_skip (row : Row) (skip count : Nat) :
    Stream.within (skip + 1) count ⟨row :: rows, errors⟩ = Stream.within skip count ⟨rows, errors⟩ := by
  simp [Stream.within, Nat.add_right_comm]

theorem within_short (skip count : Nat) : Stream.within skip (count + 1) ⟨[], errors⟩ = ⟨[], errors⟩ := by
  simp [Stream.within]

-- An open window over what the child has yet to play.
structure Open (child : Source σ) (setting : Setting) (errors : List EngineError) (s : Limited σ) (stream : Stream) :
    Prop where
  opened : s.closed = false
  remains : ∃ rest, child.Plays setting errors rest s.child ∧ Stream.within s.skip s.remaining ⟨rest, errors⟩ = stream

theorem advance_hands (count skip : Nat) (plays : child.Plays setting errors rows s) (admits : setting.Admits ctx engine) :
    let window := Stream.within skip (count + 1) ⟨rows, errors⟩
    Hands setting.base ctx (fun t => Open child setting errors t ⟨window.rows.tail, window.errors⟩) window
      (Limited.advance child ctx (count + 1) skip s engine) := by
  induction skip generalizing s rows engine with
  | zero =>
      have hands := plays.hands admits
      rw [Limited.advance]
      generalize pulled : child.pull ctx s engine = answer at hands
      cases hands with
      | @row row rest _ _ _ kept playing => exact .row kept ⟨rfl, rest, playing, within_next row count⟩
      | done kept => exact .done kept
      | failed kept among =>
          rw [within_short]
          exact .failed kept among
      | cancelled kept stopped => exact .cancelled kept stopped
  | succ skip ih =>
      have hands := plays.hands admits
      rw [Limited.advance]
      generalize pulled : child.pull ctx s engine = answer at hands
      cases hands with
      | @row row rest _ _ _ kept playing =>
          rw [within_skip]
          exact ih playing (admits.on kept)
      | done kept =>
          rw [within_short]
          exact .done kept
      | failed kept among =>
          rw [within_short]
          exact .failed kept among
      | cancelled kept stopped => exact .cancelled kept stopped

theorem limit_streams {meaning : Outcome Stream} (window : Window) (streams : child.Streams setting meaning) :
    (limit child window).Streams setting (meaning.map (.within window.offset.toNat window.limit.toNat)) := by
  intro ctx engine admits
  refine (streams ctx engine admits).lift (.within window.offset.toNat window.limit.toNat)
    (fun s => ⟨s, window.offset.toNat, window.limit.toNat, false⟩) fun stream s plays =>
      plays_of_hands (Open child setting stream.errors) ?_ ⟨rfl, stream.rows, plays, rfl⟩
  rintro ⟨t, skip, remaining, closed⟩ kept ctx engine ⟨rfl, rest, plays, rfl⟩ admits
  cases remaining with
  | zero =>
      have empty : Stream.within skip 0 ⟨rest, stream.errors⟩ = ⟨[], []⟩ := by simp [Stream.within]
      rw [empty]
      exact .done admits.alike
  | succ count => exact advance_hands count skip plays admits

-- What sorting makes of the response of the child.
theorem arranged_heard (keys : List SortKey) (seed : Option Row) (live : setting.Live) (admits : setting.Admits ctx engine)
    {response : Response} (heard : Heard ctx.cancelled stream response) :
    Heard ctx.cancelled (stream.arranged (SortKey.sortRows keys seed)) (do
      let keyed ← (← response).mapM (SortKey.keyed keys seed)
      ctx.check engine.clock
      SortKey.sort keys keyed) := by
  rcases heard with gives | ⟨stopped, rfl⟩
  · cases response with
    | error e =>
        have among : e ∈ stream.errors := gives
        rw [Stream.arranged, if_neg (List.ne_nil_of_mem among)]
        exact .inl among
    | ok rows =>
        obtain ⟨unfailing, rfl⟩ : stream.errors = [] ∧ rows = stream.rows := gives
        rw [Stream.arranged, if_pos unfailing, SortKey.sortRows]
        change Heard ctx.cancelled _ (stream.rows.mapM (SortKey.keyed keys seed) >>= fun keyed =>
          ctx.check engine.clock >>= fun _ => SortKey.sort keys keyed)
        cases evaluated : stream.rows.mapM (SortKey.keyed keys seed) with
        | error e => exact .inl List.mem_cons_self
        | ok keyed =>
            rw [live.check admits]
            cases stopped : ctx.cancelled with
            | true => exact .inr ⟨rfl, rfl⟩
            | false => exact .inl (of_outcome_gives _)
  · exact .inr ⟨stopped, rfl⟩

theorem sorted_streams {meaning : Outcome Stream} (keys : List SortKey) (seed : Option Row) (live : setting.Live)
    (streams : child.Streams setting meaning) :
    (sorted child keys seed).Streams setting (meaning.map (.arranged (SortKey.sortRows keys seed))) := by
  intro ctx engine admits
  refine (streams ctx engine admits).lift (.arranged (SortKey.sortRows keys seed)) (·, none) fun stream s plays =>
    gathered_plays _ _ _ _ s (stream.arranged (SortKey.sortRows keys seed)) ?_ fun ctx engine admits => ?_
  · rw [Stream.arranged]
    split
    · exact of_outcome_whole _
    · exact fun _ => rfl
  · obtain ⟨response, t, later, drained, kept, heard⟩ := drain_plays plays admits
    exact ⟨_, t, later, by rw [drained]; rfl, kept, arranged_heard keys seed live (admits.on kept) heard⟩

end Source

end ShardQuery
