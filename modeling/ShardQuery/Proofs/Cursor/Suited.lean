import ShardQuery.Proofs.Cursor.Together
import ShardQuery.Proofs.Statement.Evaluated
import ShardQuery.Proofs.Store.Placement
import ShardQuery.Proofs.Store.Upkeep
/-!
Plans whose operators suit the rows that come to them. Main statement: what such a plan and each of its parts hand out
are rows of the declared types, unless a number gets too large or an index too deep.
-/

set_option autoImplicit false

namespace ShardQuery

-- A limit is exceeded: that of a number, or that of the depth of an index.
def EngineError.Exceeds (e : EngineError) : Prop := e.Overflows ∨ e = HashIndex.tooDeep

theorem EngineError.exceeds_execution {e : EngineError} (exceeds : e.Exceeds) : ∃ detail, e = .execution detail := by
  rcases exceeds with ⟨op, left, right, rfl⟩ | rfl
  · exact ⟨_, rfl⟩
  · exact ⟨_, rfl⟩

namespace Stream

structure Meets (good : Row → Prop) (stream : Stream) : Prop where
  rows : ∀ row ∈ stream.rows, good row
  errors : ∀ e ∈ stream.errors, e.Exceeds

variable {good other : Row → Prop} {stream : Stream}

theorem meets_failing {e : EngineError} (overflows : e.Overflows) : (failing e).Meets good :=
  ⟨List.forall_mem_nil _, fun _ among => List.mem_singleton.mp among ▸ .inl overflows⟩

theorem meets_cons {row : Row} (holds : good row) (meets : stream.Meets good) : (cons row stream).Meets good :=
  ⟨List.forall_mem_cons.mpr ⟨holds, meets.rows⟩, meets.errors⟩

theorem keep_meets {test : Row → Outcome Bool} (meets : stream.Meets good)
    (judged : ∀ row, good row → Comes (fun _ => True) EngineError.Overflows (test row)) :
    (stream.keep test).Meets good := by
  obtain ⟨rows, errors⟩ := stream
  obtain ⟨fine, failing⟩ := meets
  induction rows with
  | nil => exact ⟨List.forall_mem_nil _, failing⟩
  | cons row rows ih =>
      obtain ⟨first, others⟩ := List.forall_mem_cons.mp fine
      have rest := ih others failing
      have verdict := judged row first
      rw [keep, List.foldr_cons]
      cases found : test row with
      | error e =>
          rw [found] at verdict
          exact meets_failing verdict
      | ok kept =>
          cases kept with
          | true => exact meets_cons first rest
          | false => exact rest

theorem through_meets {image : Row → Outcome Row} (meets : stream.Meets good)
    (pictured : ∀ row, good row → Comes other EngineError.Overflows (image row)) : (stream.through image).Meets other := by
  obtain ⟨rows, errors⟩ := stream
  obtain ⟨fine, failing⟩ := meets
  induction rows with
  | nil => exact ⟨List.forall_mem_nil _, failing⟩
  | cons row rows ih =>
      obtain ⟨first, others⟩ := List.forall_mem_cons.mp fine
      have picture := pictured row first
      rw [through, List.foldr_cons]
      cases found : image row with
      | error e =>
          rw [found] at picture
          exact meets_failing picture
      | ok made =>
          rw [found] at picture
          exact meets_cons picture (ih others failing)

theorem arranged_meets {arrange : List Row → Outcome (List Row)} (meets : stream.Meets good)
    (arranges : Comes (·.Perm stream.rows) EngineError.Overflows (arrange stream.rows)) :
    (stream.arranged arrange).Meets good := by
  rw [arranged]
  split
  · cases arranging : arrange stream.rows with
    | error e =>
        rw [arranging] at arranges
        exact meets_failing arranges
    | ok rows =>
        rw [arranging] at arranges
        exact ⟨fun row member => meets.rows row (List.Perm.mem_iff arranges |>.mp member), List.forall_mem_nil _⟩
  · exact ⟨List.forall_mem_nil _, meets.errors⟩

theorem within_meets (skip count : Nat) (meets : stream.Meets good) : (stream.within skip count).Meets good := by
  refine ⟨fun row member => meets.rows row (List.mem_of_mem_drop (List.mem_of_mem_take member)), fun e among => ?_⟩
  rw [within] at among
  dsimp only at among
  split at among
  · cases among
  · exact meets.errors e among

theorem sifted_meets {index : HashIndex PageStore} {pages : List BucketPage} {contents : PageMedium.Contents}
    {members : List Fingerprint} (holds : HashIndex.Holds index pages contents members) (meets : stream.Meets good) :
    (stream.sifted index).Meets good := by
  obtain ⟨inside, failing⟩ : (stream.sifted index).rows ⊆ stream.rows ∧
      ∀ e ∈ (stream.sifted index).errors, e ∈ stream.errors ∨ e = HashIndex.tooDeep := Source.sift_among holds
  exact ⟨fun row member => meets.rows row (inside member), fun e among => (failing e among).elim (meets.errors e) .inr⟩

-- Others hear of an exceeded limit as it is.
theorem from_meets (node : ClusterNode) (meets : stream.Meets good) : (stream.from node).Meets good := by
  refine ⟨meets.rows, fun e among => ?_⟩
  obtain ⟨own, known, rfl⟩ := List.mem_map.mp among
  have exceeds := meets.errors own known
  obtain ⟨detail, rfl⟩ := EngineError.exceeds_execution exceeds
  exact exceeds

theorem together_meets {parts : List Stream} (meets : ∀ part ∈ parts, part.Meets good) :
    (together parts).Meets good := by
  rw [together]
  split
  · refine ⟨fun row member => ?_, List.forall_mem_nil _⟩
    obtain ⟨part, among, inside⟩ := List.mem_flatMap.mp member
    exact (meets part among).rows row inside
  · refine ⟨List.forall_mem_nil _, fun e member => ?_⟩
    obtain ⟨part, among, inside⟩ := List.mem_flatMap.mp member
    exact (meets part among).errors e inside

theorem of_parts_meets {parts : List (Outcome (List Row))}
    (read : ∀ part ∈ parts, ∃ rows, part = .ok rows ∧ ∀ row ∈ rows, good row) : (ofParts parts).Meets good := by
  induction parts with
  | nil => exact ⟨List.forall_mem_nil _, List.forall_mem_nil _⟩
  | cons part parts ih =>
      obtain ⟨⟨rows, rfl, fine⟩, others⟩ := List.forall_mem_cons.mp read
      have rest := ih others
      exact ⟨List.forall_mem_append.mpr ⟨fine, rest.rows⟩, rest.errors⟩

end Stream

-- Sorting by keys that each have values of one type gives the same rows in another order.
theorem SortKey.sort_comes (keys : List SortKey) (seed : Option Row) (rows : List Row)
    (typed : ∀ key ∈ keys, ∃ type, ∀ row ∈ rows, Comes (Value.Of type) EngineError.Overflows (key.key.eval row seed)) :
    Comes (·.Perm rows) EngineError.Overflows (SortKey.sortRows keys seed rows) := by
  have each : List.Forall₂ (fun row own => Comes (fun entry => SortKey.keyed keys seed own = .ok entry)
      EngineError.Overflows (SortKey.keyed keys seed row)) rows rows := by
    refine List.forall₂_same.mpr fun row member => ?_
    have valued : Comes (fun _ => True) EngineError.Overflows (SortKey.valuesOf keys seed row) := by
      have evaluated : List.Forall₂ (fun key _ => Comes (fun _ => True) EngineError.Overflows (key.key.eval row seed))
          keys keys := by
        refine List.forall₂_same.mpr fun key among => ?_
        obtain ⟨type, comes⟩ := typed key among
        exact comes_imp (comes row member) fun _ _ _ => trivial
      exact comes_imp (comes_map_m evaluated) fun _ _ _ => trivial
    exact comes_bind valued fun values done _ => bind_of_ok done rfl
  refine comes_bind (comes_map_m each) fun keyed _ made => ?_
  have known (entry : List Value × Row) (member : entry ∈ keyed) : entry.2 ∈ rows ∧
      SortKey.valuesOf keys seed entry.2 = .ok entry.1 := by
    obtain ⟨row, among, done⟩ := forall₂_origin made entry member
    obtain ⟨values, valued, done⟩ := ok_of_bind done
    cases done
    exact ⟨among, valued⟩
  have uniform : SortKey.uniform keys (keyed.map (·.1)) = true := by
    refine Select.uniform_typed fun i small => ?_
    obtain ⟨type, comes⟩ := typed keys[i] (List.getElem_mem small)
    refine ⟨type, fun values listed v held => ?_⟩
    obtain ⟨entry, member, rfl⟩ := List.mem_map.mp listed
    obtain ⟨among, valued⟩ := known entry member
    obtain ⟨w, held', evaluated⟩ := forall₂_at (map_m_ok_iff.mp valued) i _ (List.getElem?_eq_getElem small)
    rw [held] at held'
    cases held'
    have own := comes entry.2 among
    rw [evaluated] at own
    exact own
  have same : keyed.map (·.2) = rows := by
    refine List.forall₂_eq_eq_eq ▸ ?_
    rw [List.forall₂_map_left_iff]
    refine made.flip.imp fun entry row done => ?_
    obtain ⟨values, -, done⟩ := ok_of_bind done
    cases done
    rfl
  rw [SortKey.sort, SortKey.arrange, if_pos uniform]
  change List.Perm (_ : List Row) rows
  rw [← same]
  exact (List.mergeSort_perm keyed _).map _

-- The nodes that a run is bound to, or goes to, are among the owners of the shards that they serve.
def Context.Placed (ctx : Context) (store : Store) : Prop :=
  ∀ node, ctx.node? = some node ∨ node ∈ ctx.cluster → ∀ shard ∈ node.shards, node.id ∈ store.ring shard

namespace Source

variable {ctx : Context} {base : Engine} {table : TableId}

-- What a scan reads of a shard is what some node holds of it.
theorem scan_reads (owned : base.store.Owned) (placed : ctx.Placed base.store) (fields : List String) (shard : ShardId)
    (scanned : shard ∈ scanShards ctx base.store table) :
    ∃ node, base.store.readShard (ctx.node?.map (·.id)) table shard fields =
      .ok ((Store.records (base.store.partition node) table shard).entries.map fun entry =>
        Store.recordRow fields entry.1 entry.2) := by
  rw [scanShards] at scanned
  cases here : ctx.node? with
  | none =>
      rw [here] at scanned
      obtain ⟨⟨primary, others, owners⟩, counted⟩ := Store.owned_listed owned scanned
      exact ⟨primary, Store.read_primary base.store table shard fields primary others owners counted⟩
  | some node =>
      rw [here] at scanned
      obtain ⟨listed, serves⟩ := List.mem_filter.mp scanned
      obtain ⟨-, counted⟩ := Store.owned_listed owned listed
      have owner := placed node (.inl here) shard (List.contains_iff_mem.mp serves)
      exact ⟨node.id, Store.read_owner base.store shard _ (if_pos counted) node.id owner table fields⟩

theorem nodes_placed (table : TableId) (owned : base.store.Owned) (placed : ctx.Placed base.store) :
    ∃ nodes, nodesFor ctx table base = .ok nodes ∧ ∀ node ∈ nodes, (ctx.onNode nodes node).Placed base.store := by
  have on {nodes : List ClusterNode} (own : ∀ node ∈ nodes, ∀ shard ∈ node.shards, node.id ∈ base.store.ring shard) :
      ∀ node ∈ nodes, (ctx.onNode nodes node).Placed base.store := by
    rintro node among other (same | listed)
    · exact own other (Option.some.inj same ▸ among)
    · exact own other listed
  rw [nodesFor]
  split
  · refine ⟨_, Store.placement_eq _ fun shard listed => (Store.owned_listed owned listed).2, on fun node among shard own => ?_⟩
    obtain ⟨id, -, found⟩ := List.mem_filterMap.mp among
    rw [Store.placed?] at found
    split at found
    · cases found
    · cases found
      exact Store.primary_owner (beq_iff_eq.mp (List.mem_filter.mp own).2)
  · exact ⟨ctx.cluster, rfl, on fun node among => placed node (.inr among)⟩

end Source

namespace Plan

-- Whether the operators of a plan suit the rows that come to them, so that only limits can be exceeded.
def Suited (store : Store) : Plan → Prop
  | .scan table _ fields schema => ∀ node shard id record,
      (Store.records (store.partition node) table shard).get? id = some record →
        (Store.recordRow fields id record).Conforms schema
  | .values rows schema => ∀ row ∈ rows, row.Conforms schema
  | .filter predicate child => child.Suited store ∧ ∀ row : Row, row.Conforms child.schema →
      Comes (fun _ => True) EngineError.Overflows (predicate.isTrue row none)
  | .project exprs schema child => child.Suited store ∧ exprs.length = schema.size ∧
      ∀ row : Row, row.Conforms child.schema →
        Comes (Row.Conforms · schema) EngineError.Overflows ((exprs.mapM (PlanExpr.eval row none)).map Row.mk)
  | .orderBy keys child => child.Suited store ∧ ∀ key ∈ keys, ∃ type, ∀ row : Row, row.Conforms child.schema →
      Comes (Value.Of type) EngineError.Overflows (key.key.eval row none)
  | .distinct child | .fanOut _ child | .limit _ child => child.Suited store
  | _ => False

-- A plan, or what is below its operators.
inductive Within (part : Plan) : Plan → Prop
  | whole : Within part part
  | inner {plan child : Plan} (own : plan.child? = some child) (inside : Within part child) : Within part plan

theorem suited_within {store : Store} {part plan : Plan} (suited : plan.Suited store) (within : part.Within plan) :
    part.Suited store := by
  induction within with
  | whole => exact suited
  | @inner plan child own _ ih =>
      apply ih
      cases plan with
      | filter | project | orderBy =>
          cases own
          exact suited.1
      | distinct | fanOut | limit =>
          cases own
          exact suited
      | _ => cases own

theorem suited_streams (plan : Plan) (channels : List Channel) (setting : Source.Setting) (live : setting.Live)
    (valid : setting.base.config.validate = .ok ())
    (usable : setting.base.CanSpill)
    (owned : setting.base.store.Owned) (placed : setting.ctx.Placed setting.base.store)
    (suited : plan.Suited setting.base.store) :
    ∃ stream, (plan.pipeline none channels).source.Streams setting (.ok stream) ∧
      stream.Meets (Row.Conforms · plan.schema) := by
  induction plan generalizing channels setting with
  | scan table name fields schema =>
      refine ⟨_, Source.guarded_streams live (Source.scan_streams live), Stream.of_parts_meets fun part among => ?_⟩
      obtain ⟨shard, scanned, rfl⟩ := List.mem_map.mp among
      obtain ⟨node, read⟩ := Source.scan_reads owned placed fields shard scanned
      refine ⟨_, read, fun row member => ?_⟩
      obtain ⟨entry, held, rfl⟩ := List.mem_map.mp member
      exact suited node shard entry.1 entry.2 ((SortedMap.get?_eq_some _ _ _).mpr held)
  | values rows schema =>
      exact ⟨_, Source.guarded_streams live (Source.listing_streams _ (.ok rows) live fun _ _ _ => rfl), suited, List.forall_mem_nil _⟩
  | filter predicate child ih =>
      obtain ⟨stream, streams, meets⟩ := ih channels setting live valid usable owned placed suited.1
      exact ⟨_, Source.guarded_streams live (Source.filter_streams predicate none streams), Stream.keep_meets meets suited.2⟩
  | project exprs schema child ih =>
      obtain ⟨stream, streams, meets⟩ := ih channels setting live valid usable owned placed suited.1
      have projected := Source.guarded_streams live (Source.project_streams exprs schema none streams)
      rw [if_pos suited.2.1] at projected
      exact ⟨_, projected, Stream.through_meets meets suited.2.2⟩
  | distinct child ih =>
      obtain ⟨stream, streams, meets⟩ := ih channels.tail setting live valid usable owned placed suited
      obtain ⟨index, pages, contents, made, holds, -, -⟩ := Source.of_config_holds setting.base.config setting.base.directories valid usable
      have sifted := Source.guarded_streams live (Source.distinct_sifts (channels.headD 0) streams)
      change Source.Streams _ _ (HashIndex.ofConfig setting.base.config setting.base.directories >>= fun index => .ok (stream.sifted index)) at sifted
      rw [made] at sifted
      exact ⟨_, sifted, Stream.sifted_meets holds meets⟩
  | fanOut table child ih =>
      obtain ⟨nodes, found, places⟩ := Source.nodes_placed table owned placed
      have each (ctx : Context) : ∃ stream : Stream, (∃ node ∈ nodes, ctx = setting.ctx.onNode nodes node) →
          (child.pipeline none channels).source.Streams ⟨ctx, setting.base, true⟩ (.ok stream) ∧
            stream.Meets (Row.Conforms · child.schema) := by
        by_cases known : ∃ node ∈ nodes, ctx = setting.ctx.onNode nodes node
        · obtain ⟨node, among, rfl⟩ := known
          obtain ⟨stream, streams, meets⟩ := ih channels ⟨setting.ctx.onNode nodes node, setting.base, true⟩ live valid
            usable owned (places node among) suited
          exact ⟨stream, fun _ => ⟨streams, meets⟩⟩
        · exact ⟨⟨[], []⟩, fun there => absurd there known⟩
      choose part parts using each
      have streams := Source.guarded_streams live (Source.fan_out_streams table live true (fun ctx => .ok (part ctx))
        fun nodes' found' node among => ⟨fun _ => rfl, by
          cases found.symm.trans found'
          exact (parts _ ⟨node, among, rfl⟩).1⟩)
      rw [found] at streams
      refine ⟨_, streams, Stream.together_meets fun stream among => ?_⟩
      obtain ⟨node, member, rfl⟩ := List.mem_map.mp among
      exact Stream.from_meets node (parts _ ⟨node, member, rfl⟩).2
  | orderBy keys child ih =>
      obtain ⟨stream, streams, meets⟩ := ih channels setting live valid usable owned placed suited.1
      refine ⟨_, Source.guarded_streams live (Source.sorted_streams keys none live streams), Stream.arranged_meets meets ?_⟩
      refine SortKey.sort_comes keys none stream.rows fun key among => ?_
      obtain ⟨type, comes⟩ := suited.2 key among
      exact ⟨type, fun row member => comes row (meets.rows row member)⟩
  | limit window child ih =>
      obtain ⟨stream, streams, meets⟩ := ih channels setting live valid usable owned placed suited
      exact ⟨_, Source.guarded_streams live (Source.limit_streams window streams), Stream.within_meets _ _ meets⟩
  | _ => exact suited.elim

end Plan

end ShardQuery
