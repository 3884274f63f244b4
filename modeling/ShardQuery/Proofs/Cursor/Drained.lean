import ShardQuery.Proofs.Cursor.Together
import ShardQuery.Proofs.Store.Listing
/-!
Plans that only read, drained. Main statement: what is drained is the stream of the plan, for every tree of operators,
every outer row and every order in which map tasks take their turns.
-/

set_option autoImplicit false

namespace ShardQuery

namespace Plan

-- Whatever comes to an operator that removes duplicates can be told apart by its fingerprints.
def ToldApart (engine : Engine) (seed : Option Row) : Plan → Context → Prop
  | .distinct child, ctx => child.ToldApart engine seed ctx ∧
      ∀ stream, child.stream engine seed ctx = .ok stream → Row.ToldApart engine.config.pageSize stream.rows
  | .fanOut table child, ctx => ∀ nodes, Source.nodesFor ctx table engine = .ok nodes →
      ∀ node ∈ nodes, child.ToldApart engine seed (ctx.onNode nodes node)
  | .filter _ child, ctx | .project _ _ child, ctx | .orderBy _ child, ctx | .limit _ child, ctx =>
      child.ToldApart engine seed ctx
  | _, _ => True

-- On the nodes of a fan-out the plan may be asked to stop, when the task of another node has failed.
theorem pipeline_streams (seed : Option Row) (plan : Plan) (reads : plan.reads = true) (channels : List Channel)
    (setting : Source.Setting) (live : setting.Live)
    (usable : setting.base.CanSpill)
    (told : plan.ToldApart setting.base seed setting.ctx) :
    (plan.pipeline seed channels).source.Streams setting (plan.stream setting.base seed setting.ctx) := by
  induction plan generalizing channels setting with
  | scan table name fields schema => exact Source.guarded_streams live (Source.scan_streams live)
  | values rows schema => exact Source.guarded_streams live (Source.listing_streams _ (.ok rows) live fun _ _ _ => rfl)
  | showDatabases =>
      refine Source.guarded_streams live (Source.listing_streams _ (.ok setting.base.catalog.databaseRows) live ?_)
      rintro _ _ ⟨warnings, rfl⟩
      rfl
  | showTables database =>
      refine Source.guarded_streams live (Source.listing_streams _
        ((Catalog.ask (setting.base.catalog.tableList database)).map (·.map Table.listingRow)) live ?_)
      rintro _ _ ⟨warnings, rfl⟩
      rfl
  | showColumns database table =>
      refine Source.guarded_streams live (Source.listing_streams _
        ((Catalog.ask (setting.base.catalog.tableNamed database table)).map (·.fields.map Field.listingRow)) live ?_)
      rintro _ _ ⟨warnings, rfl⟩
      rfl
  | filter predicate child ih =>
      exact Source.guarded_streams live (Source.filter_streams predicate seed (ih reads channels setting live usable told))
  | project exprs schema child ih =>
      exact Source.guarded_streams live
        (Source.project_streams exprs schema seed (ih reads channels setting live usable told))
  | distinct child ih =>
      exact Source.guarded_streams live
        (Source.distinct_streams _ usable told.2 (ih reads channels.tail setting live usable told.1))
  | fanOut table child ih =>
      refine Source.guarded_streams live
        (Source.fan_out_streams table live true (child.stream setting.base seed) fun nodes placed node member => ?_)
      exact ⟨fun _ => rfl, ih reads channels ⟨setting.ctx.onNode nodes node, setting.base, true⟩ live usable
        (told nodes placed node member)⟩
  | orderBy keys child ih =>
      exact Source.guarded_streams live (Source.sorted_streams keys seed live (ih reads channels setting live usable told))
  | limit window child ih =>
      exact Source.guarded_streams live (Source.limit_streams window (ih reads channels setting live usable told))
  | createDatabase | dropDatabase | alterDatabase | createTable | dropTable | alterTable | insert => cases reads

end Plan

namespace Cursor

-- What is drained of a plan whose source has a stream.
theorem drained_of_streams {engine : Engine} {ctx : Context} {seed : Option Row} {plan : Plan} {channels : List Channel}
    (meaning : Outcome Stream) (live : ctx.check engine.clock = .ok ()) :
    (plan.pipeline seed channels).source.Streams ⟨ctx, engine, false⟩ meaning →
    match meaning with
    | .error e => start ctx ⟨plan, channels⟩ seed engine = .error e
    | .ok stream => ∃ cursor, start ctx ⟨plan, channels⟩ seed engine = .ok cursor ∧
        stream.Gives (cursor.drain ctx engine).rows ∧ engine.Alike (cursor.drain ctx engine).engine := by
  intro streams
  have admits : Source.Setting.Admits ⟨ctx, engine, false⟩ ctx engine :=
    ⟨⟨false, Bool.le_refl _, ctx.stopped_false.symm⟩, Engine.alike_refl engine⟩
  have running := Context.running_of_check live
  have begins := streams ctx engine admits
  have begun : start ctx ⟨plan, channels⟩ seed engine =
      ((plan.pipeline seed channels).source.start ctx engine).map (Cursor.mk ⟨plan, channels⟩ seed) := rfl
  rw [begun]
  generalize (plan.pipeline seed channels).source.start ctx engine = outcome at begins ⊢
  cases begins with
  | refused e => rfl
  | cancelled stopped => exact absurd stopped (Bool.eq_false_iff.mp running)
  | @begun stream s plays =>
      obtain ⟨response, t, later, drained, kept, heard⟩ := Source.drain_plays plays admits
      have gives : stream.Gives response := heard.resolve_right fun stopped => by
        rw [running] at stopped
        cases stopped.1
      refine ⟨_, rfl, ?_⟩
      change stream.Gives ((plan.pipeline seed channels).source.drain ctx s engine).rows ∧
        engine.Alike ((plan.pipeline seed channels).source.drain ctx s engine).engine
      rw [drained]
      exact ⟨gives, kept⟩

theorem drained_as_stream (engine : Engine) (ctx : Context) (seed : Option Row) (plan : Plan) (channels : List Channel)
    (reads : plan.reads = true) (live : ctx.check engine.clock = .ok ())
    (usable : engine.CanSpill)
    (told : plan.ToldApart engine seed ctx) :
    match plan.stream engine seed ctx with
    | .error e => start ctx ⟨plan, channels⟩ seed engine = .error e
    | .ok stream => ∃ cursor, start ctx ⟨plan, channels⟩ seed engine = .ok cursor ∧
        stream.Gives (cursor.drain ctx engine).rows ∧ engine.Alike (cursor.drain ctx engine).engine :=
  drained_of_streams _ live (Plan.pipeline_streams seed plan reads channels ⟨ctx, engine, false⟩ live usable told)

section Gapped

-- Two nodes with a shard each. One of their records has no value, and the value of another is too large to be added to.
def gapped : Engine :=
  let entries : List LogEntry := [
    ⟨⟨7⟩, 0, [⟨1, [], [("a", .int (-5))]⟩, ⟨2, [], []⟩, ⟨3, [], [("a", .int (-3))]⟩, ⟨4, [], [("a", .int 1)]⟩]⟩,
    ⟨⟨7⟩, 1, [⟨1048576, [], [("a", .int (-3))]⟩, ⟨1048577, [], [("a", .int (-4))]⟩]⟩]
  { Engine.make Source.smallMemory 2 with store := ((Engine.make Source.smallMemory 2).store.replay entries).2 }

def gappedScan : Plan := .scan ⟨7⟩ "gapped" [idColumn, "a"] ⟨[.plain idColumn .id, .plain "a" .int]⟩

-- On each node the sums of the first two records with a value, which stops short of the overflow.
def gappedSums : Plan :=
  .limit ⟨2, 0⟩ (.project [.binary (.column 1) .plus (.literal (.int 9223372036854775807))] ⟨[.plain "sum" .int]⟩
    (.filter (.isNull (.column 1) true) gappedScan))

def greatestSums : Plan := .orderBy [⟨.column 0, true⟩] (.distinct (.fanOut ⟨7⟩ gappedSums))

def takingTurns : Context := { Context.of "main" with turns := [1, 0, 1, 1, 0] }

theorem gapped_shards : gapped.store.shards ⟨7⟩ = [0, 1] :=
  Store.shards_of_held [0, 1] (by decide +kernel) (by decide)

-- Each node reads its own shard.
theorem gapped_sums_stream : (Plan.fanOut ⟨7⟩ gappedSums).stream gapped none takingTurns =
    .ok ⟨[⟨[.int 9223372036854775802]⟩, ⟨[.int 9223372036854775804]⟩, ⟨[.int 9223372036854775804]⟩,
      ⟨[.int 9223372036854775803]⟩], []⟩ := by
  have placed : Source.nodesFor takingTurns ⟨7⟩ gapped = .ok [⟨⟨0⟩, [0]⟩, ⟨⟨1⟩, [1]⟩] := by
    rw [Source.nodesFor, gapped_shards]
    decide +kernel
  have shards (nodes : List ClusterNode) (node : ClusterNode) :
      Source.scanShards (takingTurns.onNode nodes node) gapped.store ⟨7⟩ = [0, 1].filter node.serves := by
    rw [← gapped_shards]
    rfl
  simp only [Plan.stream, placed, gappedSums, gappedScan, shards]
  decide +kernel

theorem merge_sort_least_first {α : Type} {le : α → α → Bool} {a b c : α} (ab : le a b = false) (ac : le a c = false)
    (bc : le b c = true) : [a, b, c].mergeSort le = [b, c, a] := by
  simp [List.mergeSort, ab, ac, bc]

-- A sum with what it is sorted by.
def keyedSum (sum : Int64) : List Value × Row := ([.int sum], ⟨[.int sum]⟩)

def keyedSums : List (List Value × Row) :=
  [keyedSum 9223372036854775802, keyedSum 9223372036854775804, keyedSum 9223372036854775803]

theorem greatest_sums_stream : greatestSums.stream gapped none takingTurns =
    .ok ⟨[⟨[.int 9223372036854775804]⟩, ⟨[.int 9223372036854775803]⟩, ⟨[.int 9223372036854775802]⟩], []⟩ := by
  have told : (Plan.distinct (.fanOut ⟨7⟩ gappedSums)).stream gapped none takingTurns = .ok ⟨keyedSums.map (·.2), []⟩ ∧
      (keyedSums.map (·.2)).mapM (SortKey.keyed [⟨.column 0, true⟩] none) = .ok keyedSums := by
    rw [Plan.stream, gapped_sums_stream]
    decide +kernel
  obtain ⟨distinct, keyed⟩ := told
  have ordered : SortKey.sortRows [⟨.column 0, true⟩] none (keyedSums.map (·.2)) =
      .ok [⟨[.int 9223372036854775804]⟩, ⟨[.int 9223372036854775803]⟩, ⟨[.int 9223372036854775802]⟩] := by
    refine bind_of_ok keyed ?_
    rw [SortKey.sort, SortKey.arrange, keyedSums, merge_sort_least_first (by decide) (by decide) (by decide)]
    rfl
  rw [greatestSums, Plan.stream, distinct]
  change Except.ok (Stream.arranged _ _) = _
  rw [Stream.arranged, if_pos rfl, ordered]
  rfl

theorem greatest_sums_drained : ∃ cursor, start takingTurns ⟨greatestSums, [0]⟩ none gapped = .ok cursor ∧
    (cursor.drain takingTurns gapped).rows =
      .ok [⟨[.int 9223372036854775804]⟩, ⟨[.int 9223372036854775803]⟩, ⟨[.int 9223372036854775802]⟩] := by
  have told : greatestSums.ToldApart gapped none takingTurns := by
    refine ⟨fun _ _ _ _ => trivial, fun stream known => ?_⟩
    obtain rfl := Except.ok.inj (gapped_sums_stream.symm.trans known)
    exact ⟨by decide +kernel, by decide +kernel⟩
  have drains := drained_as_stream gapped takingTurns none greatestSums [0] rfl (by decide +kernel) nofun told
  rw [greatest_sums_stream] at drains
  obtain ⟨cursor, started, gives, -⟩ := drains
  refine ⟨cursor, started, ?_⟩
  cases response : (cursor.drain takingTurns gapped).rows with
  | ok rows =>
      rw [response] at gives
      exact congrArg Except.ok gives.2
  | error e =>
      rw [response] at gives
      exact nomatch gives

end Gapped

section Unwritable

def unwritable : Config := { Config.standard with pageSize := 64, poolPages := 2, spillDir := some "spill\x00" }

def unwritableEngine : Engine := Engine.make unwritable 1

def sevenRows : List Row := (List.range 7).map fun i => ⟨[.int (.ofNat i)]⟩

def sevenDistinct : Plan := .distinct (.values sevenRows .empty)

-- Where no spill file can be made (a path holds no NUL), more rows than fit into memory are not drained.
theorem unwritable_spill_fails : sevenDistinct.reads = true ∧ unwritable.validate = .ok () ∧
    (Context.of "main").check unwritableEngine.clock = .ok () ∧
    sevenDistinct.ToldApart unwritableEngine none (.of "main") ∧
    sevenDistinct.stream unwritableEngine none (.of "main") = .ok ⟨sevenRows, []⟩ ∧
    ∃ cursor, start (.of "main") ⟨sevenDistinct, [0]⟩ none unwritableEngine = .ok cursor ∧
      (cursor.drain (.of "main") unwritableEngine).rows = .error (.io "the spill directory cannot be made") := by
  have live : (Context.of "main").check unwritableEngine.clock = .ok () := rfl
  have listed : (Plan.values sevenRows .empty).stream unwritableEngine none (.of "main") = .ok ⟨sevenRows, []⟩ := by
    rw [Plan.stream]
  have told : sevenDistinct.ToldApart unwritableEngine none (.of "main") := by
    refine ⟨trivial, fun stream known => ?_⟩
    obtain rfl := Except.ok.inj (listed.symm.trans known)
    exact ⟨by decide +kernel, by decide +kernel⟩
  obtain ⟨index, made, refused⟩ : ∃ index, HashIndex.ofConfig unwritable = .ok index ∧
      (Stream.sift [] index sevenRows).errors = [.io "the spill directory cannot be made"] := by
    have refusal : (HashIndex.ofConfig unwritable).toOption.map (fun index => (Stream.sift [] index sevenRows).errors) =
        some [.io "the spill directory cannot be made"] := by decide +kernel
    cases made : HashIndex.ofConfig unwritable with
    | ok index =>
        rw [made] at refusal
        exact ⟨index, rfl, Option.some.inj refusal⟩
    | error e => rw [made] at refusal; cases refusal
  have whole : sevenDistinct.stream unwritableEngine none (.of "main") = .ok ⟨sevenRows, []⟩ := by
    have fresh : Row.firstOccurrences sevenRows = sevenRows := rfl
    rw [sevenDistinct, Plan.stream, listed]
    change (HashIndex.ofConfig unwritable >>= fun _ => .ok (Stream.mk (Row.firstOccurrences sevenRows) [])) = _
    rw [made, fresh]
    rfl
  have streams : (sevenDistinct.pipeline none [0]).source.Streams ⟨.of "main", unwritableEngine, false⟩
      (.ok (Stream.sift [] index sevenRows)) := by
    have running : Source.Setting.Live ⟨.of "main", unwritableEngine, false⟩ := live
    have listing := Source.guarded_streams running
      (Source.listing_streams (fun _ _ => .ok sevenRows) (.ok sevenRows) running fun _ _ _ => rfl)
    have sifts := Source.guarded_streams running (Source.distinct_sifts 0 listing)
    change Source.Streams _ _ (HashIndex.ofConfig unwritable >>= fun index => .ok (Stream.sift [] index sevenRows)) at sifts
    rwa [made] at sifts
  obtain ⟨cursor, started, gives, -⟩ := drained_of_streams _ live streams
  refine ⟨rfl, by decide +kernel, live, told, whole, cursor, started, ?_⟩
  cases response : (cursor.drain (.of "main") unwritableEngine).rows with
  | ok rows =>
      rw [response] at gives
      exact nomatch refused.symm.trans gives.1
  | error e =>
      rw [response] at gives
      have among : e ∈ (Stream.sift [] index sevenRows).errors := gives
      rw [refused] at among
      rw [List.mem_singleton.mp among]

end Unwritable

end Cursor

end ShardQuery
